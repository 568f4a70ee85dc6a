import Carver.Proofs.ConfigSettings
import Carver.Proofs.EnvironmentLayer
import Carver.Proofs.Outcome
import Mathlib.Data.List.Infix

/-!
# Which layer decides

What is built in, the file over it and the environment over both are layers: tables, with tables
where a configuration has them. They make up a layer in turn, in which the uppermost one that has
anything at a place decides, unless a table is there (`get?_layered_of_leaf`). A configuration is
made of it exactly if it stands in it and passes the checks (`ofLayers_eq_ok_iff`).
-/

namespace Carver

/-! ## Layers -/

namespace Config

variable {config : Config} {file environment document : Data} {path : List String}

/-- The document is a table, with tables at least where a configuration has them and it has
anything. -/
structure IsLayer (document : Data) : Prop where
  proper : document.Proper
  table : document.isTable = true
  tables : ∀ path ∈ tablePlaces, ∀ value ∈ document.get? path, value.isTable = true

/-- The places of settings, of the plan and of the tables. -/
def IsPlace (path : List String) : Prop :=
  IsSetting path ∨ path = ["modules"] ∨ path ∈ tablePlaces

theorem tablePlaces_closed :
    ∀ path ∈ tablePlaces, ∀ above ∈ path.inits, above = [] ∨ above ∈ tablePlaces := by
  decide

/-- Every place is directly in a table of a configuration. -/
theorem exists_holder (h : IsPlace path) :
    ∃ holder name, path = holder ++ [name] ∧ (holder = [] ∨ holder ∈ tablePlaces) := by
  rcases h with h | rfl | h
  · cases h with
    | source _ => exact ⟨["source"], _, rfl, .inr (by decide)⟩
    | imports => exact ⟨["imports"], _, rfl, .inr (by decide)⟩
    | lines _ => exact ⟨["imports", "modules"], _, rfl, .inr (by decide)⟩
    | logging _ => exact ⟨["logging"], _, rfl, .inr (by decide)⟩
  · exact ⟨[], _, rfl, .inl rfl⟩
  · simp only [tablePlaces, List.mem_cons, List.not_mem_nil, or_false] at h
    rcases h with rfl | rfl | rfl | rfl
    · exact ⟨[], _, rfl, .inl rfl⟩
    · exact ⟨[], _, rfl, .inl rfl⟩
    · exact ⟨["imports"], _, rfl, .inr (by decide)⟩
    · exact ⟨[], _, rfl, .inl rfl⟩

/-- Above a place there are tables alone. -/
theorem above_of_isPlace (h : IsPlace path) {above : List String} (habove : above <+: path)
    (hne : above ≠ path) : above = [] ∨ above ∈ tablePlaces := by
  obtain ⟨holder, name, rfl, hholder⟩ := exists_holder h
  rcases List.prefix_concat_iff.1 habove with rfl | habove
  · exact absurd rfl hne
  · rcases hholder with rfl | hholder
    · exact .inl (List.prefix_nil.1 habove)
    · exact tablePlaces_closed holder hholder above ((List.mem_inits above holder).2 habove)

/-- A layer is open to the places of a configuration. -/
theorem IsLayer.open_of_isPlace (h : IsLayer document) (hpath : IsPlace path) :
    document.Open path := by
  refine Data.open_of_tables fun above habove hne value hvalue => ?_
  rcases above_of_isPlace hpath habove hne with rfl | habove
  · exact Option.some.inj hvalue ▸ h.table
  · exact h.tables above habove value hvalue

/-- What a configuration has for a setting is no table. -/
theorem leaf_of_isSetting (h : IsSetting path) :
    ∀ value ∈ config.toData.get? path, value.isTable = false := by
  intro value hvalue
  cases h with
  | source hname =>
    simp only [List.mem_cons, List.not_mem_nil, or_false] at hname
    rcases hname with rfl | rfl | rfl | rfl
    · exact Option.some.inj hvalue ▸ rfl
    · exact Option.some.inj hvalue ▸ rfl
    · exact Option.some.inj hvalue ▸ rfl
    · rw [get?_directory] at hvalue
      obtain ⟨directory, _, rfl⟩ := Option.map_eq_some_iff.1 hvalue
      rfl
  | imports => exact Option.some.inj hvalue ▸ rfl
  | lines name =>
    rw [get?_lines] at hvalue
    obtain ⟨texts, _, rfl⟩ := Option.map_eq_some_iff.1 hvalue
    rfl
  | logging hname =>
    simp only [List.mem_cons, List.not_mem_nil, or_false] at hname
    rcases hname with rfl | rfl
    · exact Option.some.inj hvalue ▸ rfl
    · exact Option.some.inj hvalue ▸ rfl

theorem proper_toData (hdistinct : Keyed.Distinct config.imports.byModule) :
    config.toData.Proper := by
  have htexts : ∀ texts, (Data.ofTexts texts).Proper := fun texts =>
    .list (List.forall_mem_map.2 fun text _ => .text text)
  have hentry : ∀ entry : ModulePlan, entry.toData.Proper := fun entry =>
    .table (by decide : ["name", "functions", "structs", "imports"].Nodup)
      (by simp [htexts, Data.Proper.text])
  obtain ⟨⟨path, anchor, suffix, directory⟩, ⟨common, lines⟩, plan, logging⟩ := config
  have hsource : (SourceSettings.toData ⟨path, anchor, suffix, directory⟩).Proper := by
    cases directory with
    | none =>
      exact .table (by decide : ["path", "anchor", "backup_suffix"].Nodup)
        (by simp [Data.pathEntry, Data.Proper.text])
    | some directory =>
      exact .table (by decide : ["path", "anchor", "backup_suffix", "output_dir"].Nodup)
        (by simp [Data.pathEntry, Data.Proper.text])
  have hlines : (Data.table (lines.map fun pair => (pair.1, .ofTexts pair.2))).Proper := by
    refine .table ?_ (List.forall_mem_map.2 fun pair _ => htexts pair.2)
    rwa [Keyed.Distinct, List.map_map]
  have himports : (ImportTable.toData ⟨common, lines⟩).Proper :=
    .table (by decide : ["global", "modules"].Nodup) (by
      rw [List.forall_mem_cons, List.forall_mem_singleton]
      exact ⟨htexts common, hlines⟩)
  have hlogging : logging.toData.Proper :=
    .table (by decide : ["level", "format"].Nodup) (by simp [Data.Proper.text])
  exact .table (by decide : ["source", "imports", "modules", "logging"].Nodup)
    (by simp [entries, hsource, himports, hlogging, Data.Proper.list, hentry])

theorem isLayer_defaults : IsLayer Defaults.config.toData := by
  refine ⟨proper_toData (by decide), rfl, fun path hpath value hvalue => ?_⟩
  simp only [tablePlaces, List.mem_cons, List.not_mem_nil, or_false] at hpath
  rcases hpath with rfl | rfl | rfl | rfl <;> exact Option.some.inj hvalue ▸ rfl

/-- Layers laid over each other make up a layer. -/
theorem IsLayer.merge {lower upper : Data} (hlower : IsLayer lower) (hupper : IsLayer upper) :
    IsLayer (lower.merge upper) := by
  have htable : ∀ below : Option Data, (∀ value ∈ below, value.isTable = true) →
      ∀ value : Data, value.isTable = true → (Data.laidOver below value).isTable = true := by
    intro below hbelow value hvalue
    obtain ⟨entries, rfl⟩ := Data.exists_of_isTable hvalue
    cases below with
    | none => rfl
    | some base =>
      obtain ⟨held, rfl⟩ := Data.exists_of_isTable (hbelow base rfl)
      rfl
  refine ⟨hlower.proper.merge hupper.proper, ?_, fun path hpath value hvalue => ?_⟩
  · exact htable (some lower) (fun _ h => Option.some.inj h ▸ hlower.table) upper hupper.table
  · have hplace : IsPlace path := .inr (.inr hpath)
    rw [Data.get?_merge hupper.proper (hlower.open_of_isPlace hplace)
      (hupper.open_of_isPlace hplace)] at hvalue
    cases hheld : upper.get? path with
    | none =>
      rw [hheld] at hvalue
      exact hlower.tables path hpath value hvalue
    | some held =>
      rw [hheld] at hvalue
      obtain rfl := Option.some.inj hvalue
      exact htable _ (hlower.tables path hpath) held (hupper.tables path hpath held hheld)

/-- The file over what is built in, and the environment over both. -/
def layered (file environment : Data) : Data :=
  (Defaults.config.toData.merge file).merge environment

/-- What is built in is there under all layers. -/
theorem isSome_get?_layered (hfile : IsLayer file) (henvironment : IsLayer environment)
    (hpath : IsPlace path) (hthere : (Defaults.config.toData.get? path).isSome = true) :
    ((layered file environment).get? path).isSome = true := by
  have hover : ∀ lower upper : Data, IsLayer lower → IsLayer upper →
      (lower.get? path).isSome = true → ((lower.merge upper).get? path).isSome = true := by
    intro lower upper hlower hupper hsome
    rw [Data.get?_merge hupper.proper (hlower.open_of_isPlace hpath)
      (hupper.open_of_isPlace hpath), Option.isSome_or, hsome, Bool.or_true]
  exact hover _ _ (isLayer_defaults.merge hfile) henvironment
    (hover _ _ isLayer_defaults hfile hthere)

theorem covers_layered (hfile : IsLayer file) (henvironment : IsLayer environment) :
    Covers (layered file environment) := by
  have hlayer : IsLayer (layered file environment) :=
    (isLayer_defaults.merge hfile).merge henvironment
  refine ⟨hlayer.proper, fun path hpath => ?_, ?_, ?_⟩
  · have hthere : (Defaults.config.toData.get? path).isSome = true := by
      simp only [tablePlaces, List.mem_cons, List.not_mem_nil, or_false] at hpath
      rcases hpath with rfl | rfl | rfl | rfl <;> rfl
    obtain ⟨value, hvalue⟩ := Option.isSome_iff_exists.1
      (isSome_get?_layered hfile henvironment (.inr (.inr hpath)) hthere)
    obtain ⟨entries, rfl⟩ := Data.exists_of_isTable (hlayer.tables path hpath value hvalue)
    exact ⟨entries, hvalue⟩
  · exact isSome_get?_layered hfile henvironment (.inl .imports) rfl
  · exact isSome_get?_layered hfile henvironment (.inr (.inl rfl)) rfl

/-- Unless a table is found at a place, the uppermost layer that has anything there decides. -/
theorem get?_layered_of_leaf (hfile : IsLayer file) (henvironment : IsLayer environment)
    (hpath : IsPlace path)
    (hleaf : ∀ value ∈ (layered file environment).get? path, value.isTable = false) :
    (layered file environment).get? path = ((environment.get? path).or (file.get? path)).or
      (Defaults.config.toData.get? path) := by
  have hbelow := (isLayer_defaults.merge hfile).open_of_isPlace hpath
  have hupper := Data.get?_merge_of_leaf henvironment.proper hbelow
    (henvironment.open_of_isPlace hpath) hleaf
  rw [layered, hupper] at hleaf ⊢
  cases hvalue : environment.get? path with
  | some value => rfl
  | none =>
    rw [hvalue, Option.none_or] at hleaf
    rw [Option.none_or, Option.none_or, Data.get?_merge_of_leaf hfile.proper
      (isLayer_defaults.open_of_isPlace hpath) (hfile.open_of_isPlace hpath) hleaf]

/-- The layers make up a configuration if it stands in the document of all of them, and passes the
checks. -/
theorem ofLayers_eq_ok_iff (hfile : IsLayer file) (henvironment : IsLayer environment) :
    ofLayers file environment = .ok config ↔
      config.StandsIn (layered file environment) ∧ config.check = .ok () := by
  rw [← ofData?_eq_some_iff (covers_layered hfile henvironment), ofLayers, layered]
  cases ofData? .anyLists ((Defaults.config.toData.merge file).merge environment) with
  | none => simp
  | some read =>
    simp only [Option.some.injEq]
    cases hcheck : read.check with
    | error cause =>
      constructor
      · intro h
        cases h
      · intro h
        rw [h.1, h.2] at hcheck
        cases hcheck
    | ok _ =>
      refine ⟨fun h => ?_, fun h => congrArg Except.ok h.1⟩
      obtain rfl := Except.ok.inj h
      exact ⟨rfl, hcheck⟩

end Config

end Carver
