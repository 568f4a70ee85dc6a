import Carver.Config.Load
import Carver.Proofs.OverlaidTables

/-!
# A configuration as a layer

A configuration is laid over the built-in one and read from the result. Each record of it takes the
place of the built-in record with the same fields, a list takes the place of a list, and only the
lines to import by module are laid over each other key by key (`merge_fileEntries`). What was
written as a document is read back from it (`ofData?_toData`), and so the layers make up the
configuration again, with the built-in import lines below its own (`ofLayers_fileEntries`). For this
no key may be one of the two that stand for something else inside a file (`unboxEach?_fileEntries`).
-/

namespace Carver

/-! ## Boxes -/

namespace Data

/-- The keys that have a meaning of their own inside a configuration file. -/
def reservedKeys : List String := [boxKey, forbiddenKey]

theorem unboxItems?_eq_self {items : List Data} (h : ∀ item ∈ items, unbox? item = some item) :
    unboxItems? items = some items := by
  induction items with
  | nil => rfl
  | cons item items ih =>
    rw [List.forall_mem_cons] at h
    rw [unboxItems?, h.1, ih h.2]
    rfl

theorem unbox?_list {items : List Data} (h : ∀ item ∈ items, unbox? item = some item) :
    unbox? (.list items) = some (.list items) := by
  rw [unbox?, unboxItems?_eq_self h, Option.map_some]

theorem unbox?_ofTexts (texts : List String) : unbox? (.ofTexts texts) = some (.ofTexts texts) := by
  refine unbox?_list fun item hitem => ?_
  obtain ⟨text, -, rfl⟩ := List.mem_map.1 hitem
  rfl

/-- A table means itself if its values do and none of its keys is reserved. -/
theorem unbox?_table {entries : List (String × Data)}
    (h : ∀ entry ∈ entries, entry.1 ∉ reservedKeys ∧ unbox? entry.2 = some entry.2) :
    unbox? (.table entries) = some (.table entries) := by
  have hbox : entries.lookup boxKey = none := by
    rw [List.lookup_eq_none_iff]
    intro entry hentry
    rw [bne_iff_ne]
    intro hkey
    exact (h entry hentry).1 (List.mem_cons.2 (.inl hkey.symm))
  have hentries : unboxEntries? entries = some entries := by
    clear hbox
    induction entries with
    | nil => rfl
    | cons entry entries ih =>
      rw [List.forall_mem_cons] at h
      have hkey : (entry.1 != forbiddenKey) = true := by
        rw [bne_iff_ne]
        intro hkey
        exact h.1.1 (List.mem_cons_of_mem _ (List.mem_singleton.2 hkey))
      change Option.bind (guard ((entry.1 != forbiddenKey) = true)) (fun _ =>
        (unbox? entry.2).bind fun meant =>
        (unboxEntries? entries).bind fun more => some ((entry.1, meant) :: more)) = _
      rw [hkey, h.1.2, ih h.2]
      rfl
  rw [unbox?, hentries, Option.map_some, unboxTable, hbox, Option.getD_none]

theorem unboxEach?_table {entries : List (String × Data)}
    (h : ∀ entry ∈ entries, unbox? entry.2 = some entry.2) :
    unboxEach? (.table entries) = some (.table entries) := by
  have hentries : entries.mapM (fun entry => (unbox? entry.2).map ((entry.1, ·)))
      = some entries := by
    have hread : (entries.map id).mapM (fun entry => (unbox? entry.2).map ((entry.1, ·)))
        = some entries :=
      mapM_map_eq_some fun entry hentry => by rw [id, h entry hentry]; rfl
    rwa [List.map_id] at hread
  rw [unboxEach?, hentries, Option.map_some]

end Data

/-! ## Records -/

theorem ModulePlan.ofData?_toData (form : Data.RecordForm) (entry : ModulePlan) :
    ModulePlan.ofData? form entry.toData = some entry := by
  change ((Data.ofTexts entry.functions).asTexts?.bind fun functions =>
    (Data.ofTexts entry.structs).asTexts?.bind fun structs =>
    (Data.ofTexts entry.imports).asTexts?.bind fun imports =>
    some ⟨entry.name, functions, structs, imports⟩) = some entry
  simp only [Data.asTexts?_ofTexts, Option.bind_some]

theorem ModulePlan.unbox?_toData (entry : ModulePlan) :
    Data.unbox? entry.toData = some entry.toData := by
  refine Data.unbox?_table ?_
  simp only [List.forall_mem_cons, List.not_mem_nil, false_implies, implies_true, and_true,
    Data.unbox?_ofTexts]
  exact ⟨⟨by decide, rfl⟩, by decide, by decide, by decide⟩

theorem Plan.ofData?_map (form : Data.RecordForm) (plan : Plan) :
    Plan.ofData? form (.list (plan.map (·.toData))) = some plan :=
  mapM_map_eq_some fun entry _ => entry.ofData?_toData form

theorem ImportTable.ofData?_toData (form : Data.RecordForm) (table : ImportTable) :
    ImportTable.ofData? form table.toData = some ⟨table.common, Keyed.sort table.byModule⟩ := by
  change ((Data.ofTexts table.common).asTexts?.bind fun common =>
    (ofData?.linesByName? (.table (table.byModule.map fun pair => (pair.1, .ofTexts pair.2)))).bind
    fun byModule => some (ImportTable.mk common byModule)) = _
  simp only [Data.asTexts?_ofTexts, linesByName?_map, Option.bind_some]

theorem SourceSettings.ofData?_toData (form : Data.RecordForm) (source : SourceSettings) :
    SourceSettings.ofData? form source.toData = some source := by
  obtain ⟨path, anchor, backupSuffix, outputDirectory⟩ := source
  cases outputDirectory <;> rfl

theorem SourceSettings.merge_toData (source : SourceSettings) :
    Defaults.source.toData.merge source.toData = source.toData := by
  obtain ⟨path, anchor, backupSuffix, outputDirectory⟩ := source
  cases outputDirectory <;> rfl

theorem ImportTable.merge_toData (table : ImportTable) :
    Defaults.imports.toData.merge table.toData = ImportTable.toData
      ⟨table.common, Keyed.overlay Defaults.imports.byModule table.byModule⟩ := by
  have hlines := Data.mergeEntries_texts Defaults.imports.byModule table.byModule
  exact congrArg (fun lines => Data.table [("global", .ofTexts table.common),
    ("modules", .table lines)]) hlines

theorem LogSettings.ofData?_toData (form : Data.RecordForm) (logging : LogSettings) :
    LogSettings.ofData? form logging.toData = some logging := by
  obtain ⟨level, format⟩ := logging
  cases format <;> rfl

namespace Config

/-- A configuration is read back from its document, with the import lines in ascending order. -/
theorem ofData?_toData (form : Data.RecordForm) (config : Config) :
    ofData? form config.toData = some
      { config with imports := ⟨config.imports.common, Keyed.sort config.imports.byModule⟩ } := by
  change ((SourceSettings.ofData? form config.source.toData).bind fun source =>
    (ImportTable.ofData? form config.imports.toData).bind fun imports =>
    (Plan.ofData? form (.list (config.modules.map (·.toData)))).bind fun modules =>
    (LogSettings.ofData? form config.logging.toData).bind fun logging =>
    some (Config.mk source imports modules logging)) = _
  simp only [SourceSettings.ofData?_toData, ImportTable.ofData?_toData, Plan.ofData?_map,
    LogSettings.ofData?_toData, Option.bind_some]

/-! ## Layers -/

/-- The entries in the order of the file, where a plan without entries stands in front of the
tables. -/
def fileEntries (config : Config) : List (String × Data) :=
  if config.modules.isEmpty then
    [("modules", .list []), ("source", config.source.toData), ("imports", config.imports.toData),
      ("logging", config.logging.toData)]
  else config.entries

theorem mem_entries_of_mem_fileEntries {config : Config} {entry : String × Data}
    (h : entry ∈ config.fileEntries) : entry ∈ config.entries := by
  rw [fileEntries] at h
  split at h
  · rename_i hmodules
    simp only [entries, List.isEmpty_iff.1 hmodules, List.map_nil]
    grind
  · exact h

/-- The file means what it says. -/
theorem unboxEach?_fileEntries {config : Config}
    (hkeys : ∀ pair ∈ config.imports.byModule, pair.1 ∉ Data.reservedKeys) :
    Data.unboxEach? (.table config.fileEntries) = some (.table config.fileEntries) := by
  refine Data.unboxEach?_table fun entry hentry => ?_
  have hmem := mem_entries_of_mem_fileEntries hentry
  simp only [entries, List.mem_cons, List.not_mem_nil, or_false] at hmem
  obtain rfl | rfl | rfl | rfl := hmem
  · obtain ⟨path, anchor, backupSuffix, outputDirectory⟩ := config.source
    cases outputDirectory <;> rfl
  · refine Data.unbox?_table ?_
    simp only [List.forall_mem_cons, List.not_mem_nil, false_implies, implies_true, and_true]
    refine ⟨⟨by decide, Data.unbox?_ofTexts _⟩, by decide, Data.unbox?_table ?_⟩
    rw [List.forall_mem_map]
    exact fun pair hpair => ⟨hkeys pair hpair, Data.unbox?_ofTexts _⟩
  · refine Data.unbox?_list ?_
    rw [List.forall_mem_map]
    exact fun module _ => module.unbox?_toData
  · rfl

/-- The configuration with the built-in import lines below its own. -/
def overDefaults (config : Config) : Config :=
  { config with
    imports := ⟨config.imports.common,
      Keyed.overlay Defaults.imports.byModule config.imports.byModule⟩ }

theorem merge_fileEntries (config : Config) :
    Defaults.config.toData.merge (.table config.fileEntries) = config.overDefaults.toData := by
  have hmerged : Defaults.config.toData.merge (.table config.fileEntries) = .table
      [("source", Defaults.source.toData.merge config.source.toData),
        ("imports", Defaults.imports.toData.merge config.imports.toData),
        ("modules", .list (config.modules.map (·.toData))),
        ("logging", Defaults.logging.toData.merge config.logging.toData)] := by
    rw [fileEntries]
    split
    · rename_i hmodules
      rw [List.isEmpty_iff.1 hmodules]
      rfl
    · rfl
  rw [hmerged, config.source.merge_toData, config.imports.merge_toData]
  rfl

/-- The layer of a file and an empty one above it make up the configuration again. -/
theorem ofLayers_fileEntries {config : Config} (hcheck : config.check = .ok ()) :
    ofLayers (.table config.fileEntries) (.table []) = .ok
      { config with
        imports := ⟨config.imports.common,
          Keyed.sort (Keyed.overlay Defaults.imports.byModule config.imports.byModule)⟩ } := by
  have hmerge : (Defaults.config.toData.merge (.table config.fileEntries)).merge (.table [])
      = config.overDefaults.toData := by
    rw [merge_fileEntries]
    rfl
  -- the checks do not look at import lines
  have hsame : ∀ imports, ({ config with imports } : Config).check = .ok () := fun _ => hcheck
  rw [ofLayers, hmerge, ofData?_toData]
  simp only [overDefaults, hsame]

end Config

/-- An environment in which no variable is a setting is an empty layer. -/
theorem Environment.layer?_eq {environment : List (String × String)}
    (h : ∀ pair ∈ environment, keys? pair.1 = none) : layer? environment = some (.table []) := by
  have hsorted : ∀ pair ∈ Keyed.sort environment, keys? pair.1 = none :=
    fun pair hpair => h pair (Keyed.mem_of_mem_sort hpair)
  rw [layer?]
  generalize Keyed.sort environment = pairs at hsorted
  induction pairs with
  | nil => rfl
  | cons pair pairs ih =>
    rw [List.forall_mem_cons] at hsorted
    rw [List.foldlM_cons]
    simp only [hsorted.1]
    exact ih hsorted.2

end Carver
