import Carver.Proofs.OverlaidTables
import Carver.Report.Document

/-!
# Reports written and read

A report is read back from the document it is written as, provided its counts fit
(`Report.ofData?_toData`), and what is read always has counts that fit (`Report.fits_of_ofData?`).
So a value that is read as a report is read as the same report when it has been written again.

Of the value, only the fields of each record matter (`Report.ofData?_known`). Which ones these are
depends on the value for outcomes and files, because the fields of a status stand beside the others
and every status has its own. What is written has no other fields (`Report.known_toData`): the
unknown ones are dropped once.
-/

namespace Carver

/-! ## Fields of records -/

namespace Data

/-- The entry with its value reduced, if it is one of the fields. -/
def restrictEntry (fields : List (String × (Data → Data))) (entry : String × Data) :
    Option (String × Data) :=
  (fields.lookup entry.1).map fun reduce => (entry.1, reduce entry.2)

/-- The record without what is no field, and each field with its value reduced. -/
def restrict (fields : List (String × (Data → Data))) : Data → Data
  | .table entries => .table (entries.filterMap (restrictEntry fields))
  | .list items => .list (items.mapIdx fun position item =>
      match fields[position]? with
      | none => item
      | some (_, reduce) => reduce item)
  | value => value

/-- Fields whose values stay as they are. -/
def plain (names : List String) : List (String × (Data → Data)) :=
  names.map (·, id)

/-- A list with each item reduced. -/
def each (reduce : Data → Data) : Data → Data
  | .list items => .list (items.map reduce)
  | value => value

variable {α : Type} {fields : List (String × (Data → Data))} {name : String}
  {reduce : Data → Data} {read : Data → Option α}

theorem lookup_restrict (fields : List (String × (Data → Data))) (name : String)
    (entries : List (String × Data)) :
    (entries.filterMap (restrictEntry fields)).lookup name
      = (fields.lookup name).bind fun reduce => (entries.lookup name).map reduce := by
  induction entries with
  | nil => cases fields.lookup name <;> rfl
  | cons entry entries ih =>
    obtain ⟨key, value⟩ := entry
    have hentry : restrictEntry fields (key, value)
        = (fields.lookup key).map fun reduce => (key, reduce value) := rfl
    rw [Keyed.lookup_cons_ite]
    cases hkey : fields.lookup key with
    | none =>
      rw [hkey] at hentry
      rw [List.filterMap_cons_none hentry, ih]
      by_cases hname : name = key
      · rw [hname, hkey]
        rfl
      · rw [if_neg hname]
    | some reduce =>
      rw [hkey] at hentry
      rw [List.filterMap_cons_some hentry, Keyed.lookup_cons_ite]
      by_cases hname : name = key
      · rw [if_pos hname, if_pos hname, hname, hkey]
        rfl
      · rw [if_neg hname, if_neg hname, ih]

theorem lookup_plain {names : List String} (h : name ∈ names) :
    (plain names).lookup name = some id := by
  induction names with
  | nil => cases h
  | cons first names ih =>
    rw [plain, List.map_cons, Keyed.lookup_cons_ite]
    by_cases hname : name = first
    · rw [if_pos hname]
    · rw [if_neg hname]
      exact ih ((List.mem_cons.1 h).resolve_left hname)

theorem isRecord_restrict (form : RecordForm) (count : Nat) (value : Data) :
    (value.restrict fields).isRecord form count = value.isRecord form count := by
  cases value <;> simp [restrict, isRecord]

theorem field?_restrict {position : Nat} (hfield : fields[position]? = some (name, reduce))
    (hname : fields.lookup name = some reduce) (value : Data) :
    (value.restrict fields).field? position name = (value.field? position name).map reduce := by
  cases value with
  | table entries =>
    rw [restrict, field?, lookup_restrict, hname]
    rfl
  | list items =>
    rw [restrict, field?, List.getElem?_mapIdx]
    simp only [hfield]
    rfl
  | _ => rfl

theorem required_restrict {position : Nat} (hfield : fields[position]? = some (name, reduce))
    (hname : fields.lookup name = some reduce) (hread : ∀ value, read (reduce value) = read value)
    (value : Data) :
    (value.restrict fields).required position name read = value.required position name read := by
  rw [required, required, field?_restrict hfield hname]
  cases value.field? position name with
  | none => rfl
  | some held => exact hread held

/-- In a table the position of a field does not matter. -/
theorem required_plain {names : List String} (h : name ∈ names) (entries : List (String × Data))
    (position : Nat) :
    (restrict (plain names) (.table entries)).required position name read
      = (table entries).required position name read := by
  rw [restrict, required, required, field?, field?, lookup_restrict, lookup_plain h,
    Option.bind_some, Option.map_id]
  rfl

theorem optional_restrict {position : Nat} (hfield : fields[position]? = some (name, id))
    (hname : fields.lookup name = some id) (value : Data) :
    (value.restrict fields).optional position name read = value.optional position name read := by
  have hheld := field?_restrict hfield hname value
  rw [Option.map_id] at hheld
  cases value with
  | table entries =>
    change ((table entries).restrict fields).defaulted position name (nullable read) none = _
    rw [defaulted, hheld]
    rfl
  | list items => exact required_restrict hfield hname (fun _ => rfl) _
  | _ => rfl

theorem asList?_each (hread : ∀ value, read (reduce value) = read value) (value : Data) :
    (value.each reduce).asList? read = value.asList? read := by
  cases value with
  | list items =>
    rw [each, asList?, asList?, List.mapM_map]
    exact congrArg (items.mapM ·) (funext hread)
  | _ => rfl

theorem each_map {β : Type} {write : β → Data} (h : ∀ item, reduce (write item) = write item)
    (items : List β) : each reduce (.list (items.map write)) = .list (items.map write) := by
  rw [each, List.map_map]
  exact congrArg list (List.map_congr_left fun item _ => h item)

/-- What holds of everything that is read holds of the items of a list that is read. -/
theorem forall_of_asList? {P : α → Prop} (hread : ∀ value item, read value = some item → P item)
    {value : Data} {items : List α} (h : value.asList? read = some items) :
    ∀ item ∈ items, P item := by
  cases value with
  | list values =>
    rw [asList?] at h
    exact forall_mem_of_forall₂ ((forall₂_of_mapM h).imp fun value item => hread value item)
  | _ => cases h

theorem exists_of_required {record : Data} {position : Nat} {item : α}
    (h : record.required position name read = some item) : ∃ value, read value = some item := by
  rw [required] at h
  split at h
  · cases h
  · exact ⟨_, h⟩

theorem asCount?_ofNat {n : Nat} (h : n < countBound) : asCount? (.number n) = some n :=
  if_pos h

theorem lt_of_asCount? {value : Data} {n : Nat} (h : value.asCount? = some n) : n < countBound := by
  unfold asCount? at h
  split at h
  · split at h
    · rename_i hlt
      cases h
      exact hlt
    · cases h
  · cases h

end Data

/-! ## Outcomes -/

theorem Kind.ofData?_name (kind : Kind) : Kind.ofData? (.text kind.name) = some kind := by
  cases kind <;> rfl

namespace ItemStatus

/-- The count of the status fits 64 bits. -/
def Fits : ItemStatus → Prop
  | .extracted blocks => blocks < Data.countBound
  | .notFound | .truncated => True

/-- The fields that belong to the status of the value. -/
def fields (value : Data) : List String :=
  if value.required 0 "status" (Data.asTag? words) = some "extracted" then ["status", "blocks"]
  else ["status"]

theorem status_mem_fields (value : Data) : "status" ∈ fields value := by
  rw [fields]
  split <;> exact List.mem_cons_self

theorem fits_of_ofData? {value : Data} {status : ItemStatus} (h : ofData? value = some status) :
    status.Fits := by
  obtain ⟨word, _, h⟩ := Option.bind_eq_some_iff.1 h
  split at h
  · obtain ⟨blocks, hblocks, rfl⟩ := Option.map_eq_some_iff.1 h
    obtain ⟨_, hblocks⟩ := Data.exists_of_required hblocks
    exact Data.lt_of_asCount? hblocks
  · cases h
    trivial
  · cases h
    trivial
  · cases h

/-- Only the fields of its own status matter. -/
theorem ofData?_plain {names : List String} {entries : List (String × Data)}
    (h : fields (.table entries) ⊆ names) :
    ofData? (Data.restrict (Data.plain names) (.table entries)) = ofData? (.table entries) := by
  unfold ofData?
  rw [Data.required_plain (h (status_mem_fields _))]
  cases hheld : (Data.table entries).required 0 "status" (Data.asTag? words) with
  | none => rfl
  | some word =>
    by_cases htaken : word = "extracted"
    · subst htaken
      have hblocks : "blocks" ∈ fields (.table entries) := by
        rw [fields, if_pos hheld]
        exact List.mem_cons_of_mem _ List.mem_cons_self
      exact congrArg (Option.map ItemStatus.extracted ·) (Data.required_plain (h hblocks) entries 0)
    · simp only [Option.bind_eq_bind, Option.bind_some]
      split <;> first | rfl | exact absurd rfl htaken

end ItemStatus

namespace ItemOutcome

/-- The outcome without what does not belong to it. -/
def known (value : Data) : Data :=
  value.restrict (Data.plain (["name", "kind"] ++ ItemStatus.fields value))

theorem ofData?_toData {outcome : ItemOutcome} (h : outcome.status.Fits) :
    ofData? outcome.toData = some outcome := by
  obtain ⟨name, kind, status⟩ := outcome
  cases status with
  | extracted blocks =>
    change ((Kind.ofData? (.text kind.name)).bind fun kind =>
      (Option.map ItemStatus.extracted (Data.asCount? (.number blocks))).bind fun status =>
      some (ItemOutcome.mk name kind status)) = _
    rw [Kind.ofData?_name, Data.asCount?_ofNat h]
    rfl
  | notFound => cases kind <;> rfl
  | truncated => cases kind <;> rfl

theorem known_toData (outcome : ItemOutcome) : known outcome.toData = outcome.toData := by
  obtain ⟨name, kind, status⟩ := outcome
  cases status <;> rfl

theorem fits_of_ofData? {value : Data} {outcome : ItemOutcome}
    (h : ofData? value = some outcome) : outcome.status.Fits := by
  obtain ⟨_, _, h⟩ := Option.bind_eq_some_iff.1 h
  obtain ⟨_, _, h⟩ := Option.bind_eq_some_iff.1 h
  obtain ⟨_, _, h⟩ := Option.bind_eq_some_iff.1 h
  obtain ⟨status, hstatus, h⟩ := Option.bind_eq_some_iff.1 h
  cases h
  exact ItemStatus.fits_of_ofData? hstatus

theorem ofData?_known (value : Data) : ofData? (known value) = ofData? value := by
  cases value with
  | table entries =>
    have hstatus : ItemStatus.ofData? (known (.table entries))
        = ItemStatus.ofData? (.table entries) :=
      ItemStatus.ofData?_plain (List.subset_append_right _ _)
    rw [known] at hstatus
    rw [ofData?, known, Data.isRecord_restrict, Data.required_plain (by simp),
      Data.required_plain (by simp), hstatus]
    rfl
  | _ => rfl

end ItemOutcome

/-! ## Files -/

namespace WriteStatus

/-- The fields that belong to the status of the value. -/
def fields (value : Data) : List String :=
  match value.required 0 "status" (Data.asTag? words) with
  | some "failed" => ["status", "error"]
  | some "skipped" => ["status", "reason"]
  | _ => ["status"]

theorem status_mem_fields (value : Data) : "status" ∈ fields value := by
  rw [fields]
  split <;> exact List.mem_cons_self

/-- Only the fields of its own status matter. -/
theorem ofData?_plain {names : List String} {entries : List (String × Data)}
    (h : fields (.table entries) ⊆ names) :
    ofData? (Data.restrict (Data.plain names) (.table entries)) = ofData? (.table entries) := by
  unfold ofData?
  rw [Data.required_plain (h (status_mem_fields _))]
  cases hheld : (Data.table entries).required 0 "status" (Data.asTag? words) with
  | none => rfl
  | some word =>
    have hown : ∀ own, fields (.table entries) = ["status", own] → own ∈ names := by
      intro own hfields
      exact h (hfields ▸ List.mem_cons_of_mem _ List.mem_cons_self)
    rw [fields, hheld] at hown
    simp only [Option.bind_eq_bind, Option.bind_some]
    split
    · rfl
    · rfl
    · exact congrArg (Option.map WriteStatus.failed ·) (Data.required_plain (hown _ rfl) entries 0)
    · exact congrArg (Option.map WriteStatus.skipped ·) (Data.required_plain (hown _ rfl) entries 0)
    · rfl

end WriteStatus

namespace FileWrite

/-- The file without what does not belong to it. -/
def known (value : Data) : Data :=
  value.restrict (Data.plain (["path", "role"] ++ WriteStatus.fields value))

theorem ofData?_toData (file : FileWrite) : ofData? file.toData = some file := by
  obtain ⟨path, role, status⟩ := file
  cases role <;> cases status <;> rfl

theorem known_toData (file : FileWrite) : known file.toData = file.toData := by
  obtain ⟨path, role, status⟩ := file
  cases status <;> rfl

theorem ofData?_known (value : Data) : ofData? (known value) = ofData? value := by
  cases value with
  | table entries =>
    have hstatus : WriteStatus.ofData? (known (.table entries))
        = WriteStatus.ofData? (.table entries) :=
      WriteStatus.ofData?_plain (List.subset_append_right _ _)
    rw [known] at hstatus
    rw [ofData?, known, Data.isRecord_restrict, Data.required_plain (by simp),
      Data.required_plain (by simp), hstatus]
    rfl
  | _ => rfl

end FileWrite

/-! ## Modules -/

namespace ModuleReport

/-- The counts of the module fit 64 bits. -/
def Fits (entry : ModuleReport) : Prop :=
  entry.fragments < Data.countBound ∧ ∀ outcome ∈ entry.outcomes, outcome.status.Fits

/-- The fields of a module's part. -/
def fields : List (String × (Data → Data)) :=
  [("name", id), ("outcomes", Data.each ItemOutcome.known), ("fragments", id), ("file", id)]

/-- The module's part without what does not belong to it. -/
def known (value : Data) : Data :=
  value.restrict fields

theorem ofData?_toData {entry : ModuleReport} (h : entry.Fits) :
    ofData? entry.toData = some entry := by
  have houtcomes : (entry.outcomes.map (·.toData)).mapM ItemOutcome.ofData? = some entry.outcomes :=
    mapM_map_eq_some fun outcome houtcome => ItemOutcome.ofData?_toData (h.2 outcome houtcome)
  have hfragments := Data.asCount?_ofNat h.1
  obtain ⟨name, outcomes, fragments, file⟩ := entry
  have hread : ofData? (toData ⟨name, outcomes, fragments, file⟩)
      = ((outcomes.map (·.toData)).mapM ItemOutcome.ofData?).bind fun outcomes =>
        (Data.asCount? (.number fragments)).bind fun fragments =>
        some ⟨name, outcomes, fragments, file⟩ := by
    cases file <;> rfl
  rw [hread, houtcomes, hfragments]
  rfl

theorem known_toData (entry : ModuleReport) : known entry.toData = entry.toData := by
  obtain ⟨name, outcomes, fragments, file⟩ := entry
  have houtcomes := Data.each_map ItemOutcome.known_toData outcomes
  have hknown : known (toData ⟨name, outcomes, fragments, file⟩)
      = .table ([("name", .text name),
        ("outcomes", Data.each ItemOutcome.known (.list (outcomes.map (·.toData)))),
        ("fragments", .number fragments)] ++ Data.pathEntry "file" file) := by
    cases file <;> rfl
  rw [hknown, houtcomes]
  rfl

theorem fits_of_ofData? {value : Data} {entry : ModuleReport} (h : ofData? value = some entry) :
    entry.Fits := by
  obtain ⟨_, _, h⟩ := Option.bind_eq_some_iff.1 h
  obtain ⟨_, _, h⟩ := Option.bind_eq_some_iff.1 h
  obtain ⟨outcomes, houtcomes, h⟩ := Option.bind_eq_some_iff.1 h
  obtain ⟨fragments, hfragments, h⟩ := Option.bind_eq_some_iff.1 h
  obtain ⟨_, _, h⟩ := Option.bind_eq_some_iff.1 h
  cases h
  obtain ⟨_, hfragments⟩ := Data.exists_of_required hfragments
  obtain ⟨_, houtcomes⟩ := Data.exists_of_required houtcomes
  exact ⟨Data.lt_of_asCount? hfragments,
    Data.forall_of_asList? (fun _ _ => ItemOutcome.fits_of_ofData?) houtcomes⟩

theorem ofData?_known (value : Data) : ofData? (known value) = ofData? value := by
  have houtcomes := Data.asList?_each ItemOutcome.ofData?_known
  rw [ofData?, known, Data.isRecord_restrict, Data.required_restrict rfl rfl (fun _ => rfl),
    Data.required_restrict rfl rfl houtcomes, Data.required_restrict rfl rfl (fun _ => rfl),
    Data.optional_restrict rfl rfl]
  rfl

end ModuleReport

/-! ## Reports -/

namespace Report

/-- The counts of the report fit 64 bits. -/
def Fits (report : Report) : Prop :=
  ∀ entry ∈ report.modules, entry.Fits

/-- The fields of a report. -/
def fields : List (String × (Data → Data)) :=
  [("source", id), ("backup", id), ("dryRun", id), ("modules", Data.each ModuleReport.known),
    ("files", Data.each FileWrite.known)]

/-- The report without what does not belong to it. -/
def known (value : Data) : Data :=
  value.restrict fields

theorem ofData?_toData {report : Report} (h : report.Fits) :
    ofData? report.toData = some report := by
  have hmodules : (report.modules.map (·.toData)).mapM ModuleReport.ofData? = some report.modules :=
    mapM_map_eq_some fun entry hentry => ModuleReport.ofData?_toData (h entry hentry)
  have hfiles : (report.files.map (·.toData)).mapM FileWrite.ofData? = some report.files :=
    mapM_map_eq_some fun file _ => file.ofData?_toData
  obtain ⟨source, backup, dryRun, modules, files⟩ := report
  have hread : ofData? (toData ⟨source, backup, dryRun, modules, files⟩)
      = ((modules.map (·.toData)).mapM ModuleReport.ofData?).bind fun modules =>
        ((files.map (·.toData)).mapM FileWrite.ofData?).bind fun files =>
        some ⟨source, backup, dryRun, modules, files⟩ := by
    cases backup <;> rfl
  rw [hread, hmodules, hfiles]
  rfl

theorem known_toData (report : Report) : known report.toData = report.toData := by
  obtain ⟨source, backup, dryRun, modules, files⟩ := report
  have hmodules := Data.each_map ModuleReport.known_toData modules
  have hfiles := Data.each_map FileWrite.known_toData files
  have hknown : known (toData ⟨source, backup, dryRun, modules, files⟩)
      = .table ([("source", .text source.text)] ++ Data.pathEntry "backup" backup
        ++ [("dryRun", .bool dryRun),
          ("modules", Data.each ModuleReport.known (.list (modules.map (·.toData)))),
          ("files", Data.each FileWrite.known (.list (files.map (·.toData))))]) := by
    cases backup <;> rfl
  rw [hknown, hmodules, hfiles]
  rfl

/-- The counts of what is read fit 64 bits. -/
theorem fits_of_ofData? {value : Data} {report : Report} (h : ofData? value = some report) :
    report.Fits := by
  obtain ⟨_, _, h⟩ := Option.bind_eq_some_iff.1 h
  obtain ⟨_, _, h⟩ := Option.bind_eq_some_iff.1 h
  obtain ⟨_, _, h⟩ := Option.bind_eq_some_iff.1 h
  obtain ⟨_, _, h⟩ := Option.bind_eq_some_iff.1 h
  obtain ⟨modules, hmodules, h⟩ := Option.bind_eq_some_iff.1 h
  obtain ⟨_, _, h⟩ := Option.bind_eq_some_iff.1 h
  cases h
  obtain ⟨_, hmodules⟩ := Data.exists_of_required hmodules
  exact Data.forall_of_asList? (fun _ _ => ModuleReport.fits_of_ofData?) hmodules

/-- Only the fields of the report matter. -/
theorem ofData?_known (value : Data) : ofData? (known value) = ofData? value := by
  have hmodules := Data.asList?_each ModuleReport.ofData?_known
  have hfiles := Data.asList?_each FileWrite.ofData?_known
  rw [ofData?, known, Data.isRecord_restrict, Data.required_restrict rfl rfl (fun _ => rfl),
    Data.optional_restrict rfl rfl, Data.required_restrict rfl rfl (fun _ => rfl),
    Data.required_restrict rfl rfl hmodules, Data.required_restrict rfl rfl hfiles]
  rfl

/-- A report is read back from the document it is written as. A value that is read as a report is
read as the same one without its unknown fields; what is written for that report has no unknown
fields, and is read as the same report again. -/
theorem reads_back :
    (∀ report : Report, report.Fits → ofData? report.toData = some report) ∧
    ∀ (value : Data) (report : Report), ofData? value = some report →
      ofData? (known value) = some report ∧ known report.toData = report.toData ∧
      ofData? report.toData = some report := by
  refine ⟨fun report => ofData?_toData, fun value report h => ?_⟩
  exact ⟨(ofData?_known value).trans h, known_toData report, ofData?_toData (fits_of_ofData? h)⟩

/-- A dry run that takes one function. -/
def oneFunction : Report where
  source := ⟨"main.rs"⟩
  backup := none
  dryRun := true
  modules := [⟨"m", [⟨"a", .function, .extracted 1⟩], 1, none⟩]
  files := [⟨⟨"main.rs"⟩, .source, .planned⟩]

/-- The same report with keys that no record has, and with a status by its number. -/
def oneFunctionAmended : Data :=
  .table [("source", .text "main.rs"), ("author", .text "x"), ("dryRun", .bool true),
    ("modules", .list [.table [("name", .text "m"),
      ("outcomes", .list [.table [("kind", .text "function"), ("blocks", .number 1),
        ("name", .text "a"), ("status", .number 0), ("error", .null)]]),
      ("fragments", .number 1)]]),
    ("files", .list [.table [("path", .text "main.rs"), ("role", .text "source"),
      ("status", .text "planned"), ("reason", .text "x")]])]

theorem reads_back_sample :
    ofData? oneFunction.toData = some oneFunction ∧
      ofData? (known oneFunctionAmended) = some oneFunction ∧
      known oneFunction.toData = oneFunction.toData ∧
      ofData? oneFunction.toData = some oneFunction := by
  have hfits : oneFunction.Fits := by
    simp [oneFunction, Fits, ModuleReport.Fits, ItemStatus.Fits, Data.countBound]
  exact ⟨reads_back.1 oneFunction hfits, reads_back.2 oneFunctionAmended oneFunction rfl⟩

end Report

end Carver
