import Carver.Job
import Carver.Proofs.Places
import Carver.Proofs.RefusedPatterns

/-!
# What a run does to the disk

A run that ends with a report is followed step by step: the copy, each module in the order of the
plan, the source. `Job.ModuleStep` says what may come of one module, and `Job.ModuleRun` strings
such steps together; what holds of the loop is proved by induction on it. `Job.Effect` then ties
the report to the tree: which file holds what, and that nothing else has changed
(`exists_effect_runOn`).
-/

namespace Carver

/-! ## The shape of a split -/

theorem length_thread {α β : Type} (step : Text → α → β × Text) (text : Text) (steps : List α) :
    (thread step text steps).1.length = steps.length := by
  induction steps generalizing text with
  | nil => rfl
  | cons a rest ih => rw [thread, List.length_cons, List.length_cons, ih]

theorem length_modules_split (text : Text) (plan : Plan) :
    (split text plan).modules.length = plan.length :=
  length_thread ModulePlan.take text plan

/-- Every entry of the plan has a share, under the same name. -/
theorem map_name_modules_split (text : Text) (plan : Plan) :
    (split text plan).modules.map (·.name) = plan.map (·.name) := by
  show (thread ModulePlan.take text plan).1.map (·.name) = _
  induction plan generalizing text with
  | nil => rfl
  | cons entry rest ih => rw [thread, List.map_cons, List.map_cons, ih, ModulePlan.take]

theorem exists_entry_of_share {text : Text} {plan : Plan} {share : ModuleShare}
    (hshare : share ∈ (split text plan).modules) : ∃ entry ∈ plan, entry.name = share.name := by
  have hname : share.name ∈ plan.map (·.name) := by
    rw [← map_name_modules_split text plan]
    exact List.mem_map_of_mem hshare
  exact List.mem_map.1 hname

theorem map_snd_zip_split (text : Text) (plan : Plan) :
    (plan.zip (split text plan).modules).map (·.2) = (split text plan).modules :=
  List.map_snd_zip (Nat.le_of_eq (length_modules_split text plan))

/-- The modules that received something. -/
def Split.takers (parts : Split) : List ModuleShare :=
  parts.modules.filter (!·.fragments.isEmpty)

namespace Job

open FileTree

/-- The content of the file of a module. -/
def contentFor (imports : ImportTable) (entry : ModulePlan) (share : ModuleShare) : Text :=
  Module.content share.name share.fragments imports entry.imports

/-! ## Single files -/

/-- A file is written and read back, or a fault is reported and no file is touched. -/
theorem writeFile_cases {job : Job} (hdry : job.dryRun = false) {path : Path} {text : Text}
    {tree changed : FileTree} {status : WriteStatus}
    (h : (job.writeFile path text : StateM FileTree WriteStatus).run tree = (status, changed)) :
    status = .written ∧ changed.readBytes path = .ok text.encode ∧
        Change ((directoriesFor path).map tree.place) [tree.place path] tree changed ∨
      (∃ error, status = .failed error) ∧
        Change ((directoriesFor path).map tree.place) [] tree changed := by
  rw [writeFile, if_neg (by simp [hdry]), run_bind] at h
  have hstore := change_storeText path text tree
  generalize (Disk.storeText path text : StateM FileTree (Except Fault Unit)).run tree = stored
    at h hstore
  obtain ⟨answer, last⟩ := stored
  cases answer with
  | error fault =>
    cases h
    exact .inr ⟨⟨_, rfl⟩, hstore⟩
  | ok =>
    cases h
    exact .inl ⟨rfl, hstore.2, hstore.1⟩

/-- Making the copy, in one equation. -/
theorem run_backUp (job : Job) (tree : FileTree) :
    (job.backUp : StateM FileTree _).run tree =
      if job.dryRun then (.ok .planned, tree)
      else
        match tree.copyFile job.source job.backup with
        | .error fault => (.error fault, tree)
        | .ok copied => (.ok .written, copied) := by
  rw [backUp]
  split
  · rfl
  · rw [run_bind, run_copyFile]
    cases tree.copyFile job.source job.backup <;> rfl

/-- A run that writes copies the source first. -/
theorem copyFile_of_backUp {job : Job} (hdry : job.dryRun = false) {tree changed : FileTree}
    {copied : WriteStatus}
    (h : (job.backUp : StateM FileTree (Except Fault WriteStatus)).run tree
      = (.ok copied, changed)) :
    copied = .written ∧ tree.copyFile job.source job.backup = .ok changed := by
  rw [run_backUp, if_neg (by simp [hdry])] at h
  cases hcopy : tree.copyFile job.source job.backup with
  | error fault =>
    rw [hcopy] at h
    cases h
  | ok target =>
    rw [hcopy] at h
    cases h
    exact ⟨rfl, rfl⟩

/-- A copy that is made has the bytes of the source. -/
theorem backUp_eq_ok {job : Job} (hdry : job.dryRun = false) {tree changed : FileTree}
    (hapart : tree.place job.source ≠ tree.place job.backup) {copied : WriteStatus}
    (h : (job.backUp : StateM FileTree (Except Fault WriteStatus)).run tree
      = (.ok copied, changed)) :
    copied = .written ∧ ∃ bytes, tree.readBytes job.source = .ok bytes ∧
      changed.readBytes job.backup = .ok bytes ∧
      Change [] [tree.place job.backup] tree changed := by
  obtain ⟨hcopied, hcopy⟩ := copyFile_of_backUp hdry h
  exact ⟨hcopied, copyFile_eq_ok hapart hcopy⟩

/-! ## Modules -/

/-- What may come of a module: nothing without a fragment, else a file or a fault. -/
inductive ModuleStep (job : Job) (imports : ImportTable) (tree : FileTree) (entry : ModulePlan)
    (share : ModuleShare) : Option FileWrite → FileTree → Prop
  | idle : share.fragments = [] → ModuleStep job imports tree entry share none tree
  | written {changed : FileTree} :
      share.fragments ≠ [] →
      changed.readBytes (job.modulePath share.name)
        = .ok (contentFor imports entry share).encode →
      Change ((directoriesFor (job.modulePath share.name)).map tree.place)
        [tree.place (job.modulePath share.name)] tree changed →
      ModuleStep job imports tree entry share
        (some ⟨job.modulePath share.name, .module, .written⟩) changed
  | failed {error : String} {changed : FileTree} :
      share.fragments ≠ [] →
      Change ((directoriesFor (job.modulePath share.name)).map tree.place) [] tree changed →
      ModuleStep job imports tree entry share
        (some ⟨job.modulePath share.name, .module, .failed error⟩) changed

theorem moduleStep_writeModule {job : Job} (hdry : job.dryRun = false) (imports : ImportTable)
    (entry : ModulePlan) (share : ModuleShare) {tree changed : FileTree}
    {report : ModuleReport} {file : Option FileWrite}
    (h : (job.writeModule imports entry share : StateM FileTree _).run tree
      = ((report, file), changed)) :
    report.name = share.name ∧ ModuleStep job imports tree entry share file changed := by
  rw [writeModule] at h
  split at h
  · rename_i hempty
    cases h
    exact ⟨rfl, .idle (List.isEmpty_iff.1 hempty)⟩
  · rename_i hempty
    have hsome : share.fragments ≠ [] := fun hnil => hempty (List.isEmpty_iff.2 hnil)
    rw [run_bind] at h
    generalize hwrite : (job.writeFile (job.modulePath share.name)
      (Module.content share.name share.fragments imports entry.imports)
        : StateM FileTree WriteStatus).run tree = answer at h
    obtain ⟨status, last⟩ := answer
    cases h
    rcases writeFile_cases hdry hwrite with ⟨rfl, hread, hchange⟩ | ⟨⟨error, rfl⟩, hchange⟩
    · exact ⟨rfl, .written hsome hread hchange⟩
    · exact ⟨rfl, .failed hsome hchange⟩

/-- One module after the other. -/
inductive ModuleRun (job : Job) (imports : ImportTable) : FileTree →
    List (ModulePlan × ModuleShare) → List (ModuleReport × Option FileWrite) → FileTree → Prop
  | nil (tree : FileTree) : ModuleRun job imports tree [] [] tree
  | cons {tree mid last : FileTree} {entry : ModulePlan} {share : ModuleShare}
      {report : ModuleReport} {file : Option FileWrite} {pairs : List (ModulePlan × ModuleShare)}
      {rows : List (ModuleReport × Option FileWrite)} :
      report.name = share.name → ModuleStep job imports tree entry share file mid →
      ModuleRun job imports mid pairs rows last →
      ModuleRun job imports tree ((entry, share) :: pairs) ((report, file) :: rows) last

theorem moduleRun_writeModules {job : Job} (hdry : job.dryRun = false) (imports : ImportTable)
    {pairs : List (ModulePlan × ModuleShare)} {tree last : FileTree}
    {rows : List (ModuleReport × Option FileWrite)}
    (h : (job.writeModules imports pairs : StateM FileTree _).run tree = (rows, last)) :
    ModuleRun job imports tree pairs rows last := by
  induction pairs generalizing tree rows with
  | nil =>
    cases h
    exact .nil _
  | cons pair pairs ih =>
    obtain ⟨entry, share⟩ := pair
    rw [writeModules, run_bind] at h
    generalize hfirst : (job.writeModule imports entry share : StateM FileTree _).run tree = first
      at h
    obtain ⟨⟨report, file⟩, mid⟩ := first
    rw [run_bind] at h
    generalize hothers : (job.writeModules imports pairs : StateM FileTree _).run mid = others at h
    obtain ⟨later, final⟩ := others
    cases h
    obtain ⟨hname, hstep⟩ := moduleStep_writeModule hdry imports entry share hfirst
    exact .cons hname hstep (ih hothers)

/-- The entries for files among the rows. -/
def filesOf (rows : List (ModuleReport × Option FileWrite)) : List FileWrite :=
  rows.filterMap (·.2)

@[simp] theorem filesOf_nil : filesOf [] = [] :=
  rfl

@[simp] theorem filesOf_cons_none (report : ModuleReport)
    (rows : List (ModuleReport × Option FileWrite)) :
    filesOf ((report, none) :: rows) = filesOf rows :=
  rfl

@[simp] theorem filesOf_cons_some (report : ModuleReport) (file : FileWrite)
    (rows : List (ModuleReport × Option FileWrite)) :
    filesOf ((report, some file) :: rows) = file :: filesOf rows :=
  rfl

/-- The places of the files that were written. -/
def writtenPlaces (tree : FileTree) (files : List FileWrite) : List Location :=
  (files.filter (·.status == .written)).map (tree.place ·.path)

/-- The places on the way to files, where directories are made if they are missing. -/
def placesOnTheWay (tree : FileTree) (files : List FileWrite) : List Location :=
  (files.flatMap (directoriesFor ·.path)).map tree.place

theorem place_mem_writtenPlaces (tree : FileTree) {files : List FileWrite} {file : FileWrite}
    (hfile : file ∈ files) (hstatus : file.status = .written) :
    tree.place file.path ∈ writtenPlaces tree files :=
  List.mem_map.2 ⟨file, List.mem_filter.2 ⟨hfile, by simp [hstatus]⟩, rfl⟩

theorem writtenPlaces_append (tree : FileTree) (files others : List FileWrite) :
    writtenPlaces tree (files ++ others)
      = writtenPlaces tree files ++ writtenPlaces tree others := by
  rw [writtenPlaces, List.filter_append, List.map_append, writtenPlaces, writtenPlaces]

theorem placesOnTheWay_append (tree : FileTree) (files others : List FileWrite) :
    placesOnTheWay tree (files ++ others)
      = placesOnTheWay tree files ++ placesOnTheWay tree others := by
  rw [placesOnTheWay, List.flatMap_append, List.map_append, placesOnTheWay, placesOnTheWay]

theorem writtenPlaces_congr {directories written : List Location} {tree changed : FileTree}
    (h : Change directories written tree changed) (files : List FileWrite) :
    writtenPlaces changed files = writtenPlaces tree files :=
  List.map_congr_left fun file _ => h.place_eq file.path

theorem placesOnTheWay_congr {directories written : List Location} {tree changed : FileTree}
    (h : Change directories written tree changed) (files : List FileWrite) :
    placesOnTheWay changed files = placesOnTheWay tree files :=
  List.map_congr_left fun path _ => h.place_eq path

/-- One step changes what its entry tells. -/
theorem ModuleStep.change {job : Job} {imports : ImportTable} {tree changed : FileTree}
    {entry : ModulePlan} {share : ModuleShare} {file : Option FileWrite}
    (h : ModuleStep job imports tree entry share file changed) :
    Change (placesOnTheWay tree file.toList) (writtenPlaces tree file.toList) tree changed := by
  cases h with
  | idle _ => exact .refl tree
  | written _ _ hchange => simpa [placesOnTheWay, writtenPlaces] using hchange
  | failed _ hchange => simpa [placesOnTheWay, writtenPlaces] using hchange

namespace ModuleRun

variable {job : Job} {imports : ImportTable} {tree last : FileTree}
  {pairs : List (ModulePlan × ModuleShare)} {rows : List (ModuleReport × Option FileWrite)}

/-- The modules with a file are those with a fragment. -/
theorem declared_eq (h : ModuleRun job imports tree pairs rows last) :
    (rows.filter (·.2.isSome)).map (·.1.name)
      = ((pairs.map (·.2)).filter (!·.fragments.isEmpty)).map (·.name) := by
  induction h with
  | nil => rfl
  | cons hname hstep _ ih =>
    cases hstep with
    | idle hempty => simp [hempty, ih]
    | written hsome _ _ => simp [hsome, hname, ih]
    | failed hsome _ => simp [hsome, hname, ih]

/-- Each module with a fragment has its entry. -/
theorem path_eq (h : ModuleRun job imports tree pairs rows last) :
    (filesOf rows).map (·.path)
      = ((pairs.map (·.2)).filter (!·.fragments.isEmpty)).map (job.modulePath ·.name) := by
  induction h with
  | nil => rfl
  | cons hname hstep _ ih =>
    cases hstep with
    | idle hempty => simp [hempty, ih]
    | written hsome _ _ => simp [hsome, ih]
    | failed hsome _ => simp [hsome, ih]

theorem status_cases (h : ModuleRun job imports tree pairs rows last) :
    ∀ file ∈ filesOf rows,
      file.role = .module ∧ (file.status = .written ∨ ∃ error, file.status = .failed error) := by
  induction h with
  | nil => simp
  | cons hname hstep _ ih =>
    cases hstep with
    | idle hempty => exact ih
    | written hsome _ _ =>
      rw [filesOf_cons_some, List.forall_mem_cons]
      exact ⟨⟨rfl, .inl rfl⟩, ih⟩
    | failed hsome _ =>
      rw [filesOf_cons_some, List.forall_mem_cons]
      exact ⟨⟨rfl, .inr ⟨_, rfl⟩⟩, ih⟩

/-- The loop changes what its entries tell. -/
theorem change (h : ModuleRun job imports tree pairs rows last) :
    Change (placesOnTheWay tree (filesOf rows)) (writtenPlaces tree (filesOf rows)) tree last := by
  induction h with
  | nil tree => exact .refl tree
  | @cons tree mid last entry share report file pairs rows hname hstep _ ih =>
    have hfirst := hstep.change
    rw [writtenPlaces_congr hfirst, placesOnTheWay_congr hfirst] at ih
    have hfiles : filesOf ((report, file) :: rows) = file.toList ++ filesOf rows := by
      cases file <;> rfl
    rw [hfiles, writtenPlaces_append, placesOnTheWay_append]
    exact hfirst.append ih

theorem mem_of_mem_writtenPlaces (h : ModuleRun job imports tree pairs rows last)
    {location : Location} (hlocation : location ∈ writtenPlaces tree (filesOf rows)) :
    ∃ share ∈ (pairs.map (·.2)).filter (!·.fragments.isEmpty),
      location = tree.place (job.modulePath share.name) := by
  rw [writtenPlaces, List.mem_map] at hlocation
  obtain ⟨file, hfile, rfl⟩ := hlocation
  have hpath : file.path ∈ (filesOf rows).map (·.path) :=
    List.mem_map_of_mem (List.mem_filter.1 hfile).1
  rw [h.path_eq, List.mem_map] at hpath
  obtain ⟨share, hshare, hpath⟩ := hpath
  exact ⟨share, hshare, by rw [hpath]⟩

/-- A module whose entry says so has its file, also at the end of the loop: the modules that come
later have other places. -/
theorem readBytes_eq (h : ModuleRun job imports tree pairs rows last)
    (hapart : (pairs.map fun pair => tree.place (job.modulePath pair.2.name)).Nodup) :
    ∀ pair ∈ pairs, ⟨job.modulePath pair.2.name, .module, .written⟩ ∈ filesOf rows →
      last.readBytes (job.modulePath pair.2.name)
        = .ok (contentFor imports pair.1 pair.2).encode := by
  induction h with
  | nil => simp
  | @cons tree mid last entry share report file pairs rows hname hstep hrun ih =>
    have hplaces : (pairs.map fun pair => mid.place (job.modulePath pair.2.name))
        = pairs.map fun pair => tree.place (job.modulePath pair.2.name) :=
      List.map_congr_left fun pair _ => hstep.change.place_eq _
    rw [List.map_cons, List.nodup_cons] at hapart
    rw [hplaces] at ih
    rw [List.forall_mem_cons]
    constructor
    -- the file of this module is at a place that no later one writes
    · intro hfile
      have hkept : mid.place (job.modulePath share.name) ∉ writtenPlaces mid (filesOf rows) := by
        intro hmem
        obtain ⟨other, hother, hplace⟩ := hrun.mem_of_mem_writtenPlaces hmem
        obtain ⟨pair, hpair, rfl⟩ := List.mem_map.1 (List.mem_filter.1 hother).1
        rw [hstep.change.place_eq, hstep.change.place_eq] at hplace
        exact hapart.1 (List.mem_map.2 ⟨pair, hpair, hplace.symm⟩)
      cases hstep with
      | idle hempty => exact absurd (place_mem_writtenPlaces _ hfile rfl) hkept
      | written hsome hread hchange => exact hrun.change.readBytes hkept hread
      | failed hsome hchange =>
        rw [filesOf_cons_some, List.mem_cons] at hfile
        rcases hfile with heq | hfile
        · cases heq
        · exact absurd (place_mem_writtenPlaces mid hfile rfl) hkept
    -- the entry of a later module is not the one of this module
    · intro pair hpair hfile
      refine ih hapart.2 pair hpair ?_
      have hother : job.modulePath pair.2.name ≠ job.modulePath share.name := by
        intro heq
        exact hapart.1 (List.mem_map.2 ⟨pair, hpair, by rw [heq]⟩)
      cases hstep with
      | idle hempty => exact hfile
      | written hsome hread hchange =>
        rw [filesOf_cons_some, List.mem_cons] at hfile
        rcases hfile with heq | hfile
        · exact absurd (congrArg FileWrite.path heq) hother
        · exact hfile
      | failed hsome hchange =>
        rw [filesOf_cons_some, List.mem_cons] at hfile
        rcases hfile with heq | hfile
        · exact absurd (congrArg FileWrite.path heq) hother
        · exact hfile

end ModuleRun

/-! ## The source -/

/-- The source is written when every module file was, and else left alone. -/
theorem updateSource_cases {job : Job} (hdry : job.dryRun = false) {remaining : Text}
    {rows : List (ModuleReport × Option FileWrite)} {tree changed : FileTree}
    {status : WriteStatus}
    (h : (job.updateSource remaining rows : StateM FileTree WriteStatus).run tree
      = (status, changed)) :
    (∀ file ∈ filesOf rows, file.status.isDone = true) ∧
        (status = .written ∧ changed.readBytes job.source = .ok
            (Module.insertDeclarations remaining job.anchor
              ((rows.filter (·.2.isSome)).map (·.1.name))).encode ∧
          Change ((directoriesFor job.source).map tree.place) [tree.place job.source] tree changed ∨
        (∃ error, status = .failed error) ∧
          Change ((directoriesFor job.source).map tree.place) [] tree changed) ∨
      (∃ file ∈ filesOf rows, file.status.isDone = false) ∧
        status = .skipped skipReason ∧ changed = tree := by
  rw [updateSource] at h
  split at h
  · rename_i hall
    rw [List.all_eq_true] at hall
    exact .inl ⟨hall, writeFile_cases hdry h⟩
  · rename_i hall
    cases h
    refine .inr ⟨?_, rfl, rfl⟩
    rw [Bool.not_eq_true, List.all_eq_false] at hall
    obtain ⟨file, hfile, hstatus⟩ := hall
    exact ⟨file, hfile, Bool.not_eq_true _ ▸ hstatus⟩

/-! ## Whole runs -/

/-- The source, its copy and the files of the modules are different files. -/
def Apart (job : Job) (plan : Plan) (tree : FileTree) : Prop :=
  (tree.place job.source :: tree.place job.backup ::
    plan.map fun entry => tree.place (job.modulePath entry.name)).Nodup

instance (job : Job) (plan : Plan) (tree : FileTree) : Decidable (job.Apart plan tree) :=
  inferInstanceAs (Decidable (List.Nodup _))

/-- The file of a module of a split is one of those of the plan. -/
theorem place_mem_plan (job : Job) (tree : FileTree) {plan : Plan} {text : Text}
    {share : ModuleShare} (hshare : share ∈ (split text plan).modules) :
    tree.place (job.modulePath share.name)
      ∈ plan.map fun entry => tree.place (job.modulePath entry.name) := by
  obtain ⟨entry, hentry, hname⟩ := exists_entry_of_share hshare
  exact List.mem_map.2 ⟨entry, hentry, by rw [hname]⟩

namespace Apart

variable {job : Job} {plan : Plan} {tree : FileTree} {text : Text} {share : ModuleShare}

theorem source_ne_backup (h : job.Apart plan tree) :
    tree.place job.source ≠ tree.place job.backup := by
  rw [Apart, List.nodup_cons, List.mem_cons, not_or] at h
  exact h.1.1

theorem source_ne_module (h : job.Apart plan tree) (hshare : share ∈ (split text plan).modules) :
    tree.place job.source ≠ tree.place (job.modulePath share.name) := by
  intro heq
  rw [Apart, List.nodup_cons, List.mem_cons, not_or, heq] at h
  exact h.1.2 (place_mem_plan job tree hshare)

theorem backup_ne_module (h : job.Apart plan tree) (hshare : share ∈ (split text plan).modules) :
    tree.place job.backup ≠ tree.place (job.modulePath share.name) := by
  intro heq
  rw [Apart, List.nodup_cons, List.nodup_cons, heq] at h
  exact h.2.1 (place_mem_plan job tree hshare)

theorem modules_nodup (h : job.Apart plan tree) :
    (plan.map fun entry => tree.place (job.modulePath entry.name)).Nodup :=
  h.tail.tail

end Apart

/-- The steps of a run that ends with a report, on any disk. -/
theorem run_eq_ok {σ : Type} [Disk (StateM σ)] {job : Job} {imports : ImportTable} {plan : Plan}
    {state last : σ} {done : Completion}
    (h : (job.run imports plan : StateM σ _).run state = (.ok done, last)) :
    plan.find? (fun entry => job.overwrites entry.name) = none ∧
    ∃ (text : Text) (checked copied read written : σ),
      ((Disk.isFile job.source : StateM σ Bool).run state).2 = checked ∧
      (job.backUp : StateM σ (Except Fault WriteStatus)).run checked = (.ok done.copied, copied) ∧
      (Disk.readText job.source : StateM σ (Except Fault Text)).run copied = (.ok text, read) ∧
      done.split = split text plan ∧
      (job.writeModules imports (plan.zip (split text plan).modules) : StateM σ _).run read
        = (done.modules, written) ∧
      (job.updateSource (split text plan).remaining done.modules : StateM σ _).run written
        = (done.updated, last) := by
  rw [run, runUnder, run_bind] at h
  split at h
  · cases h
  · split at h
    · cases h
    · rename_i hguard
      refine ⟨hguard, ?_⟩
      generalize ((Disk.isFile job.source : StateM σ Bool).run state).2 = checked at h
      rw [run_bind] at h
      generalize hcopy : (job.backUp : StateM σ (Except Fault WriteStatus)).run checked
        = answer at h
      obtain ⟨_ | status, copied⟩ := answer
      · cases h
      · change (Disk.readText job.source >>= _ : StateM σ _).run copied = _ at h
        rw [run_bind] at h
        generalize hread : (Disk.readText job.source : StateM σ (Except Fault Text)).run copied
          = answer at h
        obtain ⟨_ | text, read⟩ := answer
        · cases h
        · simp only [splitUnder_eq_ok (against_none plan), run_bind] at h
          cases h
          exact ⟨text, checked, copied, read, _, rfl, hcopy, hread, rfl, rfl, rfl⟩

/-- The steps of a run that ends with a report, on a file tree. -/
theorem runOn_eq_ok {job : Job} {imports : ImportTable} {plan : Plan} {tree last : FileTree}
    {done : Completion} (h : job.runOn imports plan tree = (.ok done, last)) :
    plan.find? (fun entry => job.overwrites entry.name) = none ∧
    ∃ (text : Text) (copied written : FileTree),
      (job.backUp : StateM FileTree (Except Fault WriteStatus)).run tree
        = (.ok done.copied, copied) ∧
      copied.readText job.source = .ok text ∧ done.split = split text plan ∧
      (job.writeModules imports (plan.zip (split text plan).modules) : StateM FileTree _).run copied
        = (done.modules, written) ∧
      (job.updateSource (split text plan).remaining done.modules : StateM FileTree _).run written
        = (done.updated, last) := by
  obtain ⟨hguard, text, checked, copied, read, written, rfl, hcopy, hread, hrest⟩ := run_eq_ok h
  rw [run_readText] at hread
  obtain ⟨htext, rfl⟩ := Prod.mk.inj hread
  exact ⟨hguard, text, copied, written, hcopy, htext, hrest⟩

/-- Updating the source changes what its entry tells. -/
theorem change_updateSource {job : Job} (hdry : job.dryRun = false) {remaining : Text}
    {rows : List (ModuleReport × Option FileWrite)} {tree changed : FileTree}
    {status : WriteStatus}
    (h : (job.updateSource remaining rows : StateM FileTree WriteStatus).run tree
      = (status, changed)) :
    Change (placesOnTheWay tree [⟨job.source, .source, status⟩])
      (writtenPlaces tree [⟨job.source, .source, status⟩]) tree changed := by
  rcases updateSource_cases hdry h with
    ⟨_, ⟨rfl, _, hchange⟩ | ⟨⟨error, rfl⟩, hchange⟩⟩ | ⟨_, rfl, rfl⟩
  · simpa [placesOnTheWay, writtenPlaces] using hchange
  · simpa [placesOnTheWay, writtenPlaces] using hchange
  · exact .refl _

/-- How a run that writes went: from the tree it found to the one with the copy, to the one with the
module files, to the last one. -/
structure Course (job : Job) (imports : ImportTable) (plan : Plan) (text : Text)
    (done : Completion) (tree copied written last : FileTree) : Prop where
  dryRun_eq : job.dryRun = false
  text_eq : tree.readText job.source = .ok text
  split_eq : done.split = split text plan
  copied_eq : done.copied = .written
  /-- The copy has the bytes of the source, which keeps them. -/
  bytes_eq : ∃ bytes, tree.readBytes job.source = .ok bytes ∧
    copied.readBytes job.source = .ok bytes ∧ copied.readBytes job.backup = .ok bytes
  copy : Change [] [tree.place job.backup] tree copied
  modules : ModuleRun job imports copied (plan.zip (split text plan).modules) done.modules written
  source : (job.updateSource (split text plan).remaining done.modules : StateM FileTree _).run
    written = (done.updated, last)

theorem exists_course {job : Job} {imports : ImportTable} {plan : Plan} {tree last : FileTree}
    {done : Completion} (hdry : job.dryRun = false)
    (hapart : tree.place job.source ≠ tree.place job.backup)
    (hrun : job.runOn imports plan tree = (.ok done, last)) :
    ∃ text copied written, Course job imports plan text done tree copied written last := by
  obtain ⟨_, text, copied, written, hcopy, hread, hsplit, hmodules, hsource⟩ := runOn_eq_ok hrun
  obtain ⟨hcopied, bytes, hbytes, hbackup, hchange⟩ := backUp_eq_ok hdry hapart hcopy
  have hbytes' := hchange.readBytes (by simpa using hapart) hbytes
  have htext : tree.readText job.source = .ok text := by
    rw [← hread]
    exact readText_congr (hbytes.trans hbytes'.symm)
  exact ⟨text, copied, written, hdry, htext, hsplit, hcopied, ⟨bytes, hbytes, hbytes', hbackup⟩,
    hchange, moduleRun_writeModules hdry imports hmodules, hsource⟩

/-- The places of the modules of a split are those of the plan. -/
theorem map_place_zip_split (job : Job) (plan : Plan) (tree : FileTree) (text : Text) :
    ((plan.zip (split text plan).modules).map fun pair => tree.place (job.modulePath pair.2.name))
      = plan.map fun entry => tree.place (job.modulePath entry.name) := by
  calc (plan.zip (split text plan).modules).map
        (fun pair => tree.place (job.modulePath pair.2.name))
      = (((plan.zip (split text plan).modules).map (·.2)).map (·.name)).map
          (fun name => tree.place (job.modulePath name)) := by
        simp only [List.map_map, Function.comp_def]
    _ = (plan.map (·.name)).map (fun name => tree.place (job.modulePath name)) := by
        rw [map_snd_zip_split, map_name_modules_split]
    _ = plan.map fun entry => tree.place (job.modulePath entry.name) := by
        simp only [List.map_map, Function.comp_def]

theorem files_report (job : Job) (done : Completion) :
    (done.report job).files = ⟨job.backup, .backup, done.copied⟩ ::
      (filesOf done.modules ++ [⟨job.source, .source, done.updated⟩]) :=
  rfl

/-- The entries with the role of a module are those of the rows. -/
theorem mem_filesOf_of_role {job : Job} {done : Completion} {file : FileWrite}
    (hfile : file ∈ (done.report job).files) (hrole : file.role = .module) :
    file ∈ filesOf done.modules := by
  rw [files_report, List.mem_cons, List.mem_append, List.mem_singleton] at hfile
  rcases hfile with rfl | hmodule | rfl
  · cases hrole
  · exact hmodule
  · cases hrole

namespace Course

variable {job : Job} {imports : ImportTable} {plan : Plan} {text : Text} {done : Completion}
  {tree copied written last : FileTree}

/-- The entries of some roles: each part of the report has one role. -/
theorem filter_role_files (h : Course job imports plan text done tree copied written last)
    (keeps : Role → Bool) :
    (done.report job).files.filter (keeps ·.role)
      = [⟨job.backup, .backup, done.copied⟩].filter (keeps ·.role)
        ++ ((if keeps .module then filesOf done.modules else [])
          ++ [⟨job.source, .source, done.updated⟩].filter (keeps ·.role)) := by
  have hmodules : (filesOf done.modules).filter (keeps ·.role)
      = if keeps .module then filesOf done.modules else [] := by
    have hrole : ∀ file ∈ filesOf done.modules, keeps file.role = keeps .module := by
      intro file hfile
      rw [(h.modules.status_cases file hfile).1]
    rw [List.filter_congr hrole]
    cases keeps .module <;> simp
  rw [files_report, ← List.singleton_append, List.filter_append, List.filter_append, hmodules]

theorem filter_module_files (h : Course job imports plan text done tree copied written last) :
    (done.report job).files.filter (·.role == .module) = filesOf done.modules := by
  rw [h.filter_role_files (· == .module)]
  simp

theorem filter_not_backup_files (h : Course job imports plan text done tree copied written last) :
    (done.report job).files.filter (·.role != .backup)
      = filesOf done.modules ++ [⟨job.source, .source, done.updated⟩] := by
  rw [h.filter_role_files (· != .backup)]
  simp

/-- The entry of the source tells what came of it. -/
theorem mem_files_source_iff (h : Course job imports plan text done tree copied written last)
    {status : WriteStatus} :
    ⟨job.source, .source, status⟩ ∈ (done.report job).files ↔ done.updated = status := by
  have hother : ⟨job.source, .source, status⟩ ∉ filesOf done.modules := by
    intro hmem
    cases (h.modules.status_cases _ hmem).1
  rw [files_report, List.mem_cons, List.mem_append, List.mem_singleton]
  constructor
  · rintro (hbackup | hmodule | hsource)
    · have hrole := congrArg FileWrite.role hbackup
      cases hrole
    · exact absurd hmodule hother
    · exact (congrArg FileWrite.status hsource).symm
  · rintro rfl
    exact .inr (.inr rfl)

/-- The modules and the source change what their entries tell. -/
theorem change_after_copy (h : Course job imports plan text done tree copied written last) :
    Change (placesOnTheWay tree ((done.report job).files.filter (·.role != .backup)))
      (writtenPlaces tree ((done.report job).files.filter (·.role != .backup))) copied last := by
  have hmodules := h.modules.change
  have hsource := change_updateSource h.dryRun_eq h.source
  rw [writtenPlaces_congr hmodules, placesOnTheWay_congr hmodules] at hsource
  have hboth := hmodules.append hsource
  rwa [← writtenPlaces_append, ← placesOnTheWay_append, ← h.filter_not_backup_files,
    writtenPlaces_congr h.copy, placesOnTheWay_congr h.copy] at hboth

/-- A run changes what its report tells, and makes directories only on the way to modules and the
source. -/
theorem change (h : Course job imports plan text done tree copied written last) :
    Change (placesOnTheWay tree ((done.report job).files.filter (·.role != .backup)))
      (writtenPlaces tree (done.report job).files) tree last := by
  have hall := h.copy.append h.change_after_copy
  rw [h.filter_not_backup_files] at hall ⊢
  rw [files_report, h.copied_eq]
  exact hall

/-- What is written after the copy is the file of a module with a fragment, or the source. -/
theorem mem_of_mem_writtenPlaces (h : Course job imports plan text done tree copied written last)
    {location : Location} (hlocation : location ∈ writtenPlaces tree
      ((done.report job).files.filter (·.role != .backup))) :
    location = tree.place job.source ∨
      ∃ share ∈ (split text plan).takers, location = tree.place (job.modulePath share.name) := by
  rw [h.filter_not_backup_files, writtenPlaces_append, List.mem_append] at hlocation
  rcases hlocation with hmodule | hsource
  · rw [← writtenPlaces_congr h.copy] at hmodule
    obtain ⟨share, hshare, rfl⟩ := h.modules.mem_of_mem_writtenPlaces hmodule
    rw [map_snd_zip_split] at hshare
    exact .inr ⟨share, hshare, h.copy.place_eq _⟩
  · obtain ⟨file, hfile, rfl⟩ := List.mem_map.1 hsource
    rw [List.mem_singleton.1 (List.mem_filter.1 hfile).1]
    exact .inl rfl

/-- The copy keeps the bytes that the source had. -/
theorem backup_eq (h : Course job imports plan text done tree copied written last)
    (hapart : job.Apart plan tree) :
    last.readBytes job.backup = tree.readBytes job.source := by
  obtain ⟨bytes, hbytes, _, hbackup⟩ := h.bytes_eq
  rw [hbytes]
  refine h.change_after_copy.readBytes ?_ hbackup
  rw [h.copy.place_eq]
  intro hmem
  rcases h.mem_of_mem_writtenPlaces hmem with hsource | ⟨share, hshare, hmodule⟩
  · exact hapart.source_ne_backup hsource.symm
  · exact hapart.backup_ne_module (List.mem_filter.1 hshare).1 hmodule

/-- After the loop only the source may be written. -/
theorem readBytes_of_written (h : Course job imports plan text done tree copied written last)
    {path : Path} (hapart : tree.place job.source ≠ tree.place path) {bytes : ByteArray}
    (hread : written.readBytes path = .ok bytes) : last.readBytes path = .ok bytes := by
  refine (change_updateSource h.dryRun_eq h.source).readBytes ?_ hread
  rw [writtenPlaces_congr h.modules.change, writtenPlaces_congr h.copy, h.modules.change.place_eq,
    h.copy.place_eq]
  intro hmem
  obtain ⟨file, hfile, hplace⟩ := List.mem_map.1 hmem
  rw [List.mem_singleton.1 (List.mem_filter.1 hfile).1] at hplace
  exact hapart hplace

/-- A module file that was written has the content of the module when the loop ends. -/
theorem readBytes_module (h : Course job imports plan text done tree copied written last)
    (hnodup : (plan.map fun entry => tree.place (job.modulePath entry.name)).Nodup)
    {pair : ModulePlan × ModuleShare} (hpair : pair ∈ plan.zip (split text plan).modules)
    (hfile : ⟨job.modulePath pair.2.name, .module, .written⟩ ∈ (done.report job).files) :
    written.readBytes (job.modulePath pair.2.name)
      = .ok (contentFor imports pair.1 pair.2).encode := by
  have hnodup' : ((plan.zip (split text plan).modules).map fun pair =>
      copied.place (job.modulePath pair.2.name)).Nodup := by
    rw [map_place_zip_split]
    simpa only [h.copy.place_eq] using hnodup
  exact h.modules.readBytes_eq hnodup' pair hpair (mem_filesOf_of_role hfile rfl)

/-- A module file that was written has the content of the module to the end. -/
theorem module_eq (h : Course job imports plan text done tree copied written last)
    (hapart : job.Apart plan tree) {pair : ModulePlan × ModuleShare}
    (hpair : pair ∈ plan.zip (split text plan).modules)
    (hfile : ⟨job.modulePath pair.2.name, .module, .written⟩ ∈ (done.report job).files) :
    last.readBytes (job.modulePath pair.2.name)
      = .ok (contentFor imports pair.1 pair.2).encode :=
  h.readBytes_of_written (hapart.source_ne_module (List.of_mem_zip hpair).2)
    (h.readBytes_module hapart.modules_nodup hpair hfile)

/-- A module file that failed keeps the source as it was. -/
theorem source_kept (h : Course job imports plan text done tree copied written last)
    (hapart : job.Apart plan tree) {file : FileWrite} (hfile : file ∈ (done.report job).files)
    (hrole : file.role = .module) {error : String} (hfailed : file.status = .failed error) :
    last.readBytes job.source = tree.readBytes job.source ∧
      done.updated = .skipped skipReason := by
  have hmodule := mem_filesOf_of_role hfile hrole
  rcases updateSource_cases h.dryRun_eq h.source with ⟨hall, _⟩ | ⟨_, hskipped, hlast⟩
  · have hdone := hall file hmodule
    rw [hfailed] at hdone
    cases hdone
  · obtain ⟨bytes, hbytes, hbytes', _⟩ := h.bytes_eq
    refine ⟨?_, hskipped⟩
    rw [hlast, hbytes]
    refine h.modules.change.readBytes ?_ hbytes'
    intro hmem
    obtain ⟨share, hshare, hplace⟩ := h.modules.mem_of_mem_writtenPlaces hmem
    rw [map_snd_zip_split] at hshare
    rw [h.copy.place_eq, h.copy.place_eq] at hplace
    exact hapart.source_ne_module (List.mem_filter.1 hshare).1 hplace

/-- A source that was written declares the modules with a fragment, which all have their file. -/
theorem source_eq (h : Course job imports plan text done tree copied written last)
    (hupdated : done.updated = .written) :
    last.readBytes job.source = .ok (Module.insertDeclarations (split text plan).remaining
        job.anchor ((split text plan).takers.map (·.name))).encode ∧
      ∀ file ∈ (done.report job).files, file.role = .module → file.status = .written := by
  have hsource := h.source
  rw [hupdated] at hsource
  rcases updateSource_cases h.dryRun_eq hsource with
    ⟨hall, ⟨_, hlast, _⟩ | ⟨⟨error, hfailed⟩, _⟩⟩ | ⟨_, hskipped, _⟩
  · constructor
    · rw [hlast, h.modules.declared_eq,
        map_snd_zip_split, Split.takers]
    · intro file hfile hrole
      have hmodule := mem_filesOf_of_role hfile hrole
      rcases (h.modules.status_cases file hmodule).2 with hstatus | ⟨error, hfailed⟩
      · exact hstatus
      · have hdone := hall file hmodule
        rw [hfailed] at hdone
        cases hdone
  · cases hfailed
  · cases hskipped

end Course

/-- What a run did to the tree, as its report tells it; the source had the text `original`. -/
structure Effect (job : Job) (imports : ImportTable) (plan : Plan) (tree : FileTree)
    (original : Text) (report : Report) (last : FileTree) : Prop where
  original_eq : tree.readText job.source = .ok original
  /-- The copy has the bytes that the source had. -/
  backup_eq : last.readBytes job.backup = tree.readBytes job.source
  /-- The modules with a fragment, and no others, have an entry, in the order of the plan. -/
  module_paths : (report.files.filter (·.role == .module)).map (·.path)
    = (split original plan).takers.map (job.modulePath ·.name)
  /-- A module file that was written has the content of the module. -/
  module_eq : ∀ pair ∈ plan.zip (split original plan).modules,
    ⟨job.modulePath pair.2.name, .module, .written⟩ ∈ report.files →
      last.readBytes (job.modulePath pair.2.name) = .ok (contentFor imports pair.1 pair.2).encode
  /-- If a module file failed, the source is as it was and was skipped. -/
  source_kept : (∃ file ∈ report.files,
      file.role = .module ∧ ∃ error, file.status = .failed error) →
    last.readBytes job.source = tree.readBytes job.source ∧
      ⟨job.source, .source, .skipped skipReason⟩ ∈ report.files
  /-- If the source was written, it declares the modules with a fragment, and all of them have their
  file. -/
  source_eq : ⟨job.source, .source, .written⟩ ∈ report.files →
    last.readBytes job.source = .ok (Module.insertDeclarations (split original plan).remaining
        job.anchor ((split original plan).takers.map (·.name))).encode ∧
      ∀ file ∈ report.files, file.role = .module → file.status = .written
  /-- Nothing else has changed, except that missing directories were made on the way. -/
  others : Change (placesOnTheWay tree (report.files.filter (·.role != .backup)))
    (writtenPlaces tree report.files) tree last

/-- A run that ends with a report did to the tree what the report tells. -/
theorem exists_effect_runOn {job : Job} {imports : ImportTable} {plan : Plan}
    {tree last : FileTree} {done : Completion} (hdry : job.dryRun = false)
    (hapart : job.Apart plan tree) (hrun : job.runOn imports plan tree = (.ok done, last)) :
    ∃ original, done.split = split original plan ∧
      job.Effect imports plan tree original (done.report job) last := by
  obtain ⟨text, copied, written, h⟩ := exists_course hdry hapart.source_ne_backup hrun
  refine ⟨text, h.split_eq, ?_⟩
  constructor
  case original_eq => exact h.text_eq
  case backup_eq => exact h.backup_eq hapart
  case module_paths =>
    rw [h.filter_module_files, h.modules.path_eq,
      map_snd_zip_split, Split.takers]
  case module_eq => exact fun pair hpair hfile => h.module_eq hapart hpair hfile
  case source_kept =>
    rintro ⟨file, hfile, hrole, error, hfailed⟩
    obtain ⟨hkept, hskipped⟩ := h.source_kept hapart hfile hrole hfailed
    exact ⟨hkept, h.mem_files_source_iff.2 hskipped⟩
  case source_eq => exact fun hfile => h.source_eq (h.mem_files_source_iff.1 hfile)
  case others => exact h.change

/-- A job whose modules lie in a directory of their own. -/
def sampleJob : Job :=
  ⟨⟨"main.rs"⟩, "use std::io;", ".bak", some ⟨"parts"⟩, false⟩

/-- The directory that the job is started in, with the source. -/
def sampleTree : FileTree :=
  ⟨["work"], [(["work"], .directory),
    (["work", "main.rs"], .file (Text.encode "use std::io;\nfn a() {}\n\nfn b() {}\n".toList))]⟩

/-- One module that receives a function, and one that receives nothing. -/
def samplePlan : Plan :=
  [⟨"first", ["a"], [], []⟩, ⟨"second", ["missing"], [], []⟩]

theorem exists_effect_runOn_sample : sampleJob.Apart samplePlan sampleTree ∧
    ∃ done last original, sampleJob.runOn .empty samplePlan sampleTree = (.ok done, last) ∧
      done.split = split original samplePlan ∧
      sampleJob.Effect .empty samplePlan sampleTree original (done.report sampleJob) last := by
  have hapart : sampleJob.Apart samplePlan sampleTree := by decide +kernel
  have hdone : (sampleJob.runOn .empty samplePlan sampleTree).1.isOk = true := by decide +kernel
  refine ⟨hapart, ?_⟩
  generalize hrun : sampleJob.runOn .empty samplePlan sampleTree = answer at hdone
  obtain ⟨_ | done, last⟩ := answer
  · cases hdone
  · obtain ⟨original, heffect⟩ := exists_effect_runOn rfl hapart hrun
    exact ⟨done, last, original, rfl, heffect⟩

end Job

end Carver
