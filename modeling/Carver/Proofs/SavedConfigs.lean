import Carver.Proofs.ConfigLayers
import Carver.Proofs.FileSearch
import Carver.Proofs.WrittenLines

/-!
# Saved configurations load back

The text of a configuration is a sequence of tables with plain entries (`toToml_eq`), and so it is
read line by line back into the entries that it was written from (`read?_toToml`). A configuration
that passes the checks and was saved is loaded as it was, whatever characters its texts are made
of; only the built-in import lines come in below its own (`loadsBack_of_save`). The two reserved
keys are the exception: a configuration that keeps import lines for a module of such a name is
saved and cannot be loaded (`not_forall_loadsBack_of_save`).
-/

namespace Carver

open Toml (IsPlain PlainItems)

/-! ## The text -/

/-- The entries of a table. -/
def Data.entries : Data → List (String × Data)
  | .table entries => entries
  | _ => []

theorem SourceSettings.plainItems (source : SourceSettings) :
    PlainItems source.toData.entries := by
  obtain ⟨path, anchor, backupSuffix, outputDirectory⟩ := source
  cases outputDirectory with
  | none =>
    exact ⟨by simp [toData, Data.entries, Data.pathEntry, IsPlain.text],
      (by decide : ["path", "anchor", "backup_suffix"].Nodup)⟩
  | some directory =>
    exact ⟨by simp [toData, Data.entries, Data.pathEntry, IsPlain.text],
      (by decide : ["path", "anchor", "backup_suffix", "output_dir"].Nodup)⟩

theorem LogSettings.plainItems (logging : LogSettings) : PlainItems logging.toData.entries :=
  ⟨by simp [toData, Data.entries, IsPlain.text], (by decide : ["level", "format"].Nodup)⟩

theorem ModulePlan.plainItems (entry : ModulePlan) : PlainItems entry.toData.entries :=
  ⟨by simp [toData, Data.entries, IsPlain.text, IsPlain.texts],
    (by decide : ["name", "functions", "structs", "imports"].Nodup)⟩

/-- The import lines by module, as entries. -/
def ImportTable.lineItems (table : ImportTable) : List (String × Data) :=
  table.byModule.map fun pair => (pair.1, .ofTexts pair.2)

theorem ImportTable.isPlain_of_mem_lineItems {table : ImportTable} {item : String × Data}
    (h : item ∈ table.lineItems) : IsPlain item.2 := by
  obtain ⟨pair, -, rfl⟩ := List.mem_map.1 h
  exact .texts pair.2

namespace Config

open Toml

/-- The line of a plan without entries, which stands in front of the tables. -/
def frontText (config : Config) : Text :=
  if config.modules.isEmpty then entryLine ("modules", .ofTexts []) ++ ['\n'] else []

/-- The entries of the plan's tables. -/
def planTables (config : Config) : List (List (String × Data)) :=
  config.modules.map (·.toData.entries)

/-- The tables. -/
def bodyText (config : Config) : Text :=
  tableText ["source"] config.source.toData.entries ++ '\n' ::
  (tableText ["imports"] [("global", .ofTexts config.imports.common)] ++ '\n' ::
  (tableText ["imports", "modules"] config.imports.lineItems ++
  (config.planTables.flatMap (fun items => '\n' :: elementText ["modules"] items) ++ '\n' ::
  tableText ["logging"] config.logging.toData.entries)))

theorem entries_eq (config : Config) : config.entries =
    [("source", .table config.source.toData.entries),
      ("imports", .table [("global", .ofTexts config.imports.common),
        ("modules", .table config.imports.lineItems)]),
      ("modules", .list (config.planTables.map .table)),
      ("logging", .table config.logging.toData.entries)] := by
  rw [planTables, List.map_map]
  rfl

theorem plainLines_entries (config : Config) : plainLines config.entries =
    if config.modules.isEmpty then entryLine ("modules", .ofTexts []) else [] := by
  rw [entries_eq, plainLines_cons, plainLines_cons, plainLines_cons, plainLines_cons,
    isSection_tables, planTables]
  cases config.modules <;> rfl

theorem sections_entries (config : Config) : sections [] config.entries =
    tableText ["source"] config.source.toData.entries ::
    tableText ["imports"] [("global", .ofTexts config.imports.common)] ::
    tableText ["imports", "modules"] config.imports.lineItems ::
    (config.planTables.map (elementText ["modules"]) ++
    [tableText ["logging"] config.logging.toData.entries]) := by
  have hlines : plainLines [("global", .ofTexts config.imports.common),
        ("modules", .table config.imports.lineItems)]
      = plainLines [("global", .ofTexts config.imports.common)] := by
    rw [plainLines_cons, plainLines_cons, plainLines_cons]
    rfl
  have hinner : sections ([] ++ ["imports"]) [("global", .ofTexts config.imports.common),
        ("modules", .table config.imports.lineItems)]
      = [tableText ["imports", "modules"] config.imports.lineItems] := by
    rw [sections_cons_of_isPlain (.texts _),
      sections_cons_table fun _ => config.imports.isPlain_of_mem_lineItems, sections]
    rfl
  have htables : ∀ items ∈ config.planTables, ∀ item ∈ items, IsPlain item.2 :=
    List.forall_mem_map.2 fun entry _ => entry.plainItems.plain
  rw [entries_eq, sections_cons_table config.source.plainItems.plain, sections, hinner, hlines,
    sections_cons_tables htables, sections_cons_table config.logging.plainItems.plain, sections]
  rfl

theorem toToml_eq (config : Config) : config.toToml = config.frontText ++ config.bodyText := by
  rw [toToml, document, plainLines_entries, sections_entries, frontText, bodyText]
  have hline : (entryLine ("modules", .ofTexts [])).isEmpty = false := rfl
  cases config.modules.isEmpty with
  | false => simp [intercalate_cons, List.flatMap_map]
  | true => simp [hline, intercalate_cons, List.flatMap_map]

/-! ## Reading the text -/

/-- What is read from the line in front. -/
def frontNodes (config : Config) : Entries :=
  if config.modules.isEmpty then plainNodes [("modules", .ofTexts [])] else []

/-- What is read from the tables before the plan. -/
def upperNodes (config : Config) : Entries :=
  [("source", .table .header (plainNodes config.source.toData.entries)),
    ("imports", .table .header (plainNodes [("global", .ofTexts config.imports.common)] ++
      [("modules", .table .header (plainNodes config.imports.lineItems))]))]

/-- What is read from the table behind the plan. -/
def lowerNodes (config : Config) : Entries :=
  [("logging", .table .header (plainNodes config.logging.toData.entries))]

theorem reads_frontText (config : Config) (rest : Text) :
    Reads [] [] (config.frontText ++ rest) [] config.frontNodes rest := by
  rw [frontText, frontNodes]
  split
  · rw [List.append_assoc]
    exact (reads_entry (.texts []) rfl _).trans .blank
  · exact .refl

theorem lookup_frontNodes {config : Config} {key : String} (hkey : key ≠ "modules") :
    config.frontNodes.lookup key = none := by
  rw [frontNodes]
  split
  · rw [plainNodes, List.map_cons, Keyed.lookup_cons_ite, if_neg hkey]
    rfl
  · rfl

theorem reads_upper {config : Config} (hdistinct : Keyed.Distinct config.imports.byModule)
    (rest : Text) :
    Reads [] config.frontNodes
      (tableText ["source"] config.source.toData.entries ++ '\n' ::
      (tableText ["imports"] [("global", .ofTexts config.imports.common)] ++ '\n' ::
      (tableText ["imports", "modules"] config.imports.lineItems ++ rest)))
      ["imports", "modules"] (config.frontNodes ++ config.upperNodes) rest := by
  have hsource : config.frontNodes.lookup "source" = none := lookup_frontNodes (by decide)
  have himports : (config.frontNodes ++
      [("source", Node.table .header (plainNodes config.source.toData.entries))]).lookup "imports"
      = none := by
    rw [List.lookup_append, lookup_frontNodes (by decide)]
    rfl
  have hglobal : PlainItems [("global", .ofTexts config.imports.common)] :=
    ⟨by simp [IsPlain.texts], (by decide : ["global"].Nodup)⟩
  have hlines : PlainItems config.imports.lineItems :=
    ⟨fun _ => config.imports.isPlain_of_mem_lineItems, by
      rw [ImportTable.lineItems, List.map_map]
      exact hdistinct⟩
  have hmodules : (plainNodes [("global", .ofTexts config.imports.common)]).lookup "modules"
      = none := rfl
  have hlast := reads_table ["imports"] (Focus.top.table himports .header) (by decide) hmodules
    hlines rest
  have hnodes : config.frontNodes ++ config.upperNodes = config.frontNodes ++ [_] ++ [_] :=
    List.append_cons ..
  rw [hnodes]
  refine (reads_table _ Focus.top (by decide) hsource config.source.plainItems _).trans ?_
  refine Reads.blank.trans ?_
  refine (reads_table _ Focus.top (by decide) himports hglobal _).trans ?_
  exact Reads.blank.trans hlast

theorem reads_plan (config : Config) (rest : Text) :
    ∃ path, Reads ["imports", "modules"] (config.frontNodes ++ config.upperNodes)
      (config.planTables.flatMap (fun items => '\n' :: elementText ["modules"] items) ++ rest)
      path (withElements (config.frontNodes ++ config.upperNodes) "modules"
        (config.planTables.map plainNodes)) rest := by
  cases hmodules : config.modules with
  | nil =>
    rw [planTables, hmodules]
    exact ⟨_, .refl⟩
  | cons entry plan =>
    have hfresh : (config.frontNodes ++ config.upperNodes).lookup "modules" = none := by
      rw [frontNodes, hmodules]
      rfl
    have htables : ∀ items ∈ config.planTables, PlainItems items :=
      List.forall_mem_map.2 fun entry _ => entry.plainItems
    exact reads_elements Focus.top (by decide) hfresh [] htables rest

theorem entriesToData_nodes (config : Config) :
    entriesToData (withElements (config.frontNodes ++ config.upperNodes) "modules"
      (config.planTables.map plainNodes) ++ config.lowerNodes) = config.fileEntries := by
  have hupper : entriesToData config.upperNodes
      = [("source", config.source.toData), ("imports", config.imports.toData)] := by
    simp only [upperNodes, entriesToData, Node.toData, entriesToData_append,
      entriesToData_plainNodes]
    rfl
  have hlower : entriesToData config.lowerNodes = [("logging", config.logging.toData)] := by
    simp only [lowerNodes, entriesToData, Node.toData, entriesToData_plainNodes]
    rfl
  rw [entriesToData_append, hlower, fileEntries]
  cases hmodules : config.modules with
  | nil =>
    rw [withElements, planTables, frontNodes, hmodules]
    exact congrArg (("modules", Data.list []) :: · ++ _) hupper
  | cons entry plan =>
    have hplan : config.planTables.map Data.table = config.modules.map (·.toData) := by
      rw [planTables, List.map_map]
      rfl
    rw [withElements, if_neg (by simp [planTables, hmodules]), frontNodes, hmodules,
      entriesToData_append]
    simp only [List.isEmpty_cons, Bool.false_eq_true, if_false, List.nil_append, hupper,
      entriesToData, Node.toData, elementsToData_plainNodes, hplan]
    rfl

/-- The text of a configuration is read back into its entries. -/
theorem read?_toToml {config : Config} (hdistinct : Keyed.Distinct config.imports.byModule) :
    read? config.toToml = some (.table config.fileEntries) := by
  obtain ⟨path, hplan⟩ := reads_plan config
    ('\n' :: tableText ["logging"] config.logging.toData.entries)
  have hlogging : (withElements (config.frontNodes ++ config.upperNodes) "modules"
      (config.planTables.map plainNodes)).lookup "logging" = none := by
    have hupper : (config.frontNodes ++ config.upperNodes).lookup "logging" = none := by
      rw [List.lookup_append, lookup_frontNodes (by decide)]
      rfl
    rw [withElements]
    split
    · exact hupper
    · rw [List.lookup_append, hupper]
      rfl
  have hread : Reads [] [] config.toToml ["logging"]
      (withElements (config.frontNodes ++ config.upperNodes) "modules"
        (config.planTables.map plainNodes) ++ config.lowerNodes) [] := by
    rw [toToml_eq]
    refine (reads_frontText config config.bodyText).trans ((reads_upper hdistinct _).trans ?_)
    refine hplan.trans (Reads.blank.trans ?_)
    have hlower := reads_table path Focus.top (by decide) hlogging config.logging.plainItems []
    rwa [List.append_nil] at hlower
  have hmark : ∀ rest, config.toToml ≠ '\uFEFF' :: rest := by
    intro rest heq
    rw [toToml_eq, frontText] at heq
    split at heq <;> cases heq
  rw [hread.read?_eq hmark, entriesToData_nodes]

/-! ## The file -/

open FileTree (findFile_of_isFile isFile_iff run_bind run_findFile run_map run_kindAt run_readText
  run_writeText writeText_eq_ok readText_of_encode)

theorem readBytes_of_written {path : Path} {text : Text} {tree saved : FileTree}
    (h : StateT.run (do
      match ← Disk.writeText path text with
      | .error fault => return .error (.disk path fault)
      | .ok () => return .ok () : StateM FileTree (Except Error Unit)) tree = (.ok (), saved)) :
    saved.readBytes path = .ok text.encode := by
  rw [run_bind, run_writeText] at h
  cases hwrite : tree.writeText path text with
  | error fault =>
    rw [hwrite] at h
    cases h
  | ok changed =>
    rw [hwrite] at h
    cases h
    exact (writeText_eq_ok hwrite).2

theorem readBytes_of_save {config : Config} {path : Path} {tree saved : FileTree}
    (h : (config.save path : StateM FileTree _).run tree = (.ok (), saved)) :
    saved.readBytes path = .ok config.toToml.encode := by
  rw [save] at h
  split at h
  · exact readBytes_of_written h
  · rw [run_bind] at h
    split at h
    · cases h
    · exact readBytes_of_written h

theorem kindAt_of_readBytes {path : Path} {tree : FileTree} {bytes : ByteArray}
    (h : tree.readBytes path = .ok bytes) :
    (Disk.kindAt path : StateM FileTree _).run tree = (some .file, tree) := by
  rw [FileTree.readBytes] at h
  rw [run_kindAt]
  split at h
  · cases h
  · cases h
  · rename_i hentry
    rw [hentry]
    rfl

/-- What the entries of the configuration mean in a file at the path. -/
def layerAt (config : Config) (path : Path) : Except ConfigError Data :=
  match Data.unboxEach? (.table config.fileEntries) with
  | none => .error (.unreadable ("no TOML document in " ++ path.text))
  | some layer => .ok layer

/-- The layer of a file with the text of a configuration. -/
theorem run_fileLayer {config : Config} {path : Path} {tree : FileTree}
    (hread : tree.readBytes path = .ok config.toToml.encode)
    (hdistinct : Keyed.Distinct config.imports.byModule) :
    (fileLayer path : StateM FileTree _).run tree = (config.layerAt path, tree) := by
  have hfile : tree.findFile path = some path :=
    findFile_of_isFile (isFile_iff.2 ⟨_, hread⟩)
  have htext : (Disk.readText path : StateM FileTree _).run tree = (.ok config.toToml, tree) := by
    rw [run_readText, readText_of_encode hread]
  rw [fileLayer, run_bind, run_findFile, hfile]
  change StateT.run (Disk.readText path >>= _ : StateM FileTree _) tree = _
  rw [run_bind, htext]
  simp only [read?_toToml hdistinct, Option.bind_some, layerAt]
  cases Data.unboxEach? (.table config.fileEntries) <;> rfl

theorem run_load {config : Config} {path : Path} {environment : List (String × String)}
    {tree : FileTree} (hread : tree.readBytes path = .ok config.toToml.encode)
    (hdistinct : Keyed.Distinct config.imports.byModule)
    (hsilent : ∀ pair ∈ environment, Environment.keys? pair.1 = none) :
    (load (some path) environment : StateM FileTree _).run tree =
      (((config.layerAt path).bind (ofLayers · (.table []))).mapError .refused, tree) := by
  have hthere : (Disk.isThere path : StateM FileTree _).run tree = (true, tree) := by
    rw [Disk.isThere, run_map, kindAt_of_readBytes hread]
    rfl
  have hchoose : (chooseFile (some path) : StateM FileTree _).run tree
      = (.ok (some path), tree) := by
    rw [chooseFile, run_bind, hthere]
    rfl
  rw [load, run_bind, hchoose]
  simp only [Environment.layer?_eq hsilent, run_bind, run_fileLayer hread hdistinct]
  rfl

/-! ## The way back -/

/-- What is loaded from the path is the configuration, but with the built-in import lines for
modules that it keeps none for. -/
def LoadsBack (config : Config) (path : Path) (environment : List (String × String))
    (saved : FileTree) : Prop :=
  ∃ byModule, Keyed.Ascending byModule ∧
    (∀ name, byModule.lookup name = (config.imports.byModule.lookup name).or
      (Defaults.imports.byModule.lookup name)) ∧
    (load (some path) environment : StateM FileTree _).run saved =
      (.ok { config with imports := ⟨config.imports.common, byModule⟩ }, saved)

/-- A configuration that passes the checks and is saved is loaded back where no variable is a
setting, whatever its texts are, unless it keeps import lines under a reserved key. -/
theorem loadsBack_of_save {config : Config} {path : Path} {environment : List (String × String)}
    {tree saved : FileTree} (hcheck : config.check = .ok ())
    (hascending : Keyed.Ascending config.imports.byModule)
    (hkeys : ∀ pair ∈ config.imports.byModule, pair.1 ∉ Data.reservedKeys)
    (hsilent : ∀ pair ∈ environment, Environment.keys? pair.1 = none)
    (hsave : (config.save path : StateM FileTree _).run tree = (.ok (), saved)) :
    config.LoadsBack path environment saved := by
  have hdistinct := hascending.distinct
  have hdefaults : Keyed.Distinct Defaults.imports.byModule := by decide
  refine ⟨Keyed.sort (Keyed.overlay Defaults.imports.byModule config.imports.byModule),
    Keyed.ascending_sort _, fun name => ?_, ?_⟩
  · rw [Keyed.lookup_sort (Keyed.distinct_overlay hdefaults _), Keyed.lookup_overlay _ hdistinct]
  · rw [run_load (readBytes_of_save hsave) hdistinct hsilent, layerAt,
      unboxEach?_fileEntries hkeys]
    simp only [Except.bind, ofLayers_fileEntries hcheck]
    rfl

/-- A configuration with an empty plan and texts of all kinds. -/
def oddConfig : Config where
  source := ⟨⟨"src/\"it's\".rs"⟩, "mod 'a\\b';\nuse \"\"\"x\"\"\";", "\x00.bäk", some ⟨"'''"⟩⟩
  imports := ⟨[], [("", []), ("a.b = \"c\"", ["use \\;\r\n", "\x7f"]), ("game", []), ("λ", ["'"])]⟩
  modules := []
  logging := ⟨"info", .json⟩

/-- An empty directory. -/
def emptyTree : FileTree :=
  ⟨["work"], [(["work"], .directory)]⟩

/-- Variables that are no settings. -/
def otherVariables : List (String × String) :=
  [("HOME", "/work"), ("MODSPLIT_LOGGING", "x")]

theorem loadsBack_of_save_sample :
    oddConfig.check = .ok () ∧ Keyed.Ascending oddConfig.imports.byModule ∧
      (∀ pair ∈ oddConfig.imports.byModule, pair.1 ∉ Data.reservedKeys) ∧
      (∀ pair ∈ otherVariables, Environment.keys? pair.1 = none) ∧
      ∃ saved, (oddConfig.save ⟨"etc/odd.toml"⟩ : StateM FileTree _).run emptyTree
          = (.ok (), saved) ∧
        oddConfig.LoadsBack ⟨"etc/odd.toml"⟩ otherVariables saved := by
  have hcheck : oddConfig.check = .ok () := rfl
  have hascending : Keyed.Ascending oddConfig.imports.byModule := by decide
  have hkeys : ∀ pair ∈ oddConfig.imports.byModule, pair.1 ∉ Data.reservedKeys := by decide
  have hsilent : ∀ pair ∈ otherVariables, Environment.keys? pair.1 = none := by
    decide +kernel
  have hsave : (oddConfig.save ⟨"etc/odd.toml"⟩ : StateM FileTree _).run emptyTree
      = (.ok (), _) := rfl
  exact ⟨hcheck, hascending, hkeys, hsilent, _, hsave,
    loadsBack_of_save hcheck hascending hkeys hsilent hsave⟩

/-- A configuration with import lines under a reserved key. -/
def reservedConfig : Config :=
  { Defaults.config with
    imports := ⟨[], [(Data.forbiddenKey, ["use a;"])]⟩
    modules := [] }

/-- A configuration with a reserved key is accepted and saved, and then it cannot be loaded. -/
theorem not_forall_loadsBack_of_save :
    ¬ ∀ (config : Config) (path : Path) (environment : List (String × String))
      (tree saved : FileTree), config.check = .ok () →
      Keyed.Ascending config.imports.byModule →
      (∀ pair ∈ environment, Environment.keys? pair.1 = none) →
      (config.save path : StateM FileTree _).run tree = (.ok (), saved) →
      config.LoadsBack path environment saved := by
  intro h
  have hascending : Keyed.Ascending reservedConfig.imports.byModule := by decide
  have hsave : (reservedConfig.save ⟨"c.toml"⟩ : StateM FileTree _).run emptyTree
      = (.ok (), _) := rfl
  obtain ⟨byModule, -, -, hload⟩ := h reservedConfig ⟨"c.toml"⟩ [] emptyTree _ rfl
    hascending (by simp) hsave
  have hlayer : reservedConfig.layerAt ⟨"c.toml"⟩ = .error (.unreadable _) := rfl
  rw [run_load (readBytes_of_save hsave) hascending.distinct (by simp), hlayer] at hload
  cases hload

end Config

end Carver
