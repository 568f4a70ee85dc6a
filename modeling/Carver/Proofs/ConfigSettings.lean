import Carver.Proofs.ConfigLayers
import Carver.Proofs.MergedTables

/-!
# Where the settings of a configuration stand

A document with the tables of a configuration is read as a configuration exactly if it has at the
place of every setting what the configuration has there, and a plan that is read as its plan
(`ofData?_eq_some_iff`). Nothing else in the document matters, and neither does the order of its
entries: the import lines by module are read in ascending order.
-/

namespace Carver

/-! ## Fields -/

namespace Data

variable {α : Type} {entries : List (String × Data)} {name : String} {read : Data → Option α}

theorem required_table (position : Nat) :
    (table entries).required position name read = (entries.lookup name).bind read := by
  rw [required, field?]
  cases entries.lookup name <;> rfl

theorem defaulted_table (position : Nat) (default : α) :
    (table entries).defaulted position name read default
      = (entries.lookup name).elim (some default) read := by
  rw [defaulted, field?]
  cases entries.lookup name <;> rfl

/-- A value that is there is read if it is what is written. -/
theorem bind_read_iff {found : Option Data} {write : α → Data}
    (h : ∀ value ∈ found, ∀ item, read value = some item ↔ value = write item) (item : α) :
    found.bind read = some item ↔ found = some (write item) := by
  cases found with
  | none => simp
  | some value => rw [Option.bind_some, h value rfl, Option.some.injEq]

theorem asText?_eq_some_iff {value : Data} {text : String} :
    value.asText? = some text ↔ value = .text text := by
  cases value <;> simp [asText?]

theorem asTexts?_eq_some_iff {value : Data} {texts : List String} :
    value.asTexts? = some texts ↔ value = .ofTexts texts := by
  refine ⟨fun h => ?_, fun h => h ▸ asTexts?_ofTexts texts⟩
  cases value with
  | list items =>
    rw [asTexts?, asList?] at h
    rw [ofTexts, eq_map_of_forall₂ ((forall₂_of_mapM h).imp fun _ _ => asText?_eq_some_iff.1)]
  | _ => cases h

theorem ofTexts_injective : Function.Injective ofTexts := fun texts others h => by
  have hread := asTexts?_ofTexts others
  rw [← h, asTexts?_ofTexts] at hread
  exact Option.some.inj hread

end Data

theorem Path.ofData?_eq_some_iff {value : Data} {path : Path} :
    Path.ofData? value = some path ↔ value = .text path.text := by
  rw [Path.ofData?, Option.map_eq_some_iff]
  constructor
  · rintro ⟨text, htext, rfl⟩
    exact Data.asText?_eq_some_iff.1 htext
  · rintro rfl
    exact ⟨path.text, rfl, rfl⟩

namespace LogFormat

theorem ofName?_eq_some_iff {name : String} {format : LogFormat} :
    ofName? name = some format ↔ name = format.name := by
  constructor
  · intro h
    rw [ofName?.eq_def] at h
    split at h
    · exact Option.some.inj h ▸ rfl
    · exact Option.some.inj h ▸ rfl
    · cases h
  · rintro rfl
    cases format <;> rfl

/-- A proper value names a format by its word alone. -/
theorem ofData?_eq_some_iff {value : Data} (hproper : value.Proper) {format : LogFormat} :
    ofData? value = some format ↔ value = .text format.name := by
  constructor
  · intro h
    obtain ⟨name, hname, hformat⟩ := Option.bind_eq_some_iff.1 h
    rw [ofName?_eq_some_iff] at hformat
    rw [Data.asChoice?.eq_def] at hname
    split at hname
    · rw [Option.some.inj hname, hformat]
    · cases hproper with
      | table _ hentries => cases hentries _ List.mem_cons_self
    · cases hname
  · rintro rfl
    cases format <;> rfl

end LogFormat

namespace LogSettings

theorem ofData?_eq_some_iff {form : Data.RecordForm} {entries : List (String × Data)}
    (hproper : (Data.table entries).Proper) {logging : LogSettings} :
    ofData? form (.table entries) = some logging ↔
      entries.lookup "level" = some (.text logging.level) ∧
      entries.lookup "format" = some (.text logging.format.name) := by
  rw [← Data.bind_read_iff fun _ _ _ => Data.asText?_eq_some_iff,
    ← Data.bind_read_iff fun _ hvalue _ => LogFormat.ofData?_eq_some_iff (hproper.of_lookup hvalue),
    ofData?, Data.required_table, Data.required_table]
  constructor
  · intro h
    obtain ⟨_, _, h⟩ := Option.bind_eq_some_iff.1 h
    obtain ⟨level, hlevel, h⟩ := Option.bind_eq_some_iff.1 h
    obtain ⟨format, hformat, h⟩ := Option.bind_eq_some_iff.1 h
    obtain rfl := Option.some.inj h
    exact ⟨hlevel, hformat⟩
  · rintro ⟨hlevel, hformat⟩
    rw [hlevel, hformat]
    rfl

end LogSettings

namespace SourceSettings

/-- Among proper entries a directory is left out or a text. -/
theorem defaulted_directory_iff {entries : List (String × Data)}
    (hproper : (Data.table entries).Proper) {directory : Option Path} :
    (Data.table entries).defaulted 3 "output_dir" (Data.nullable Path.ofData?) none
        = some directory ↔
      entries.lookup "output_dir" = directory.map (.text ·.text) := by
  rw [Data.defaulted_table]
  cases hvalue : entries.lookup "output_dir" with
  | none => cases directory <;> simp
  | some value =>
    have hnullable : Data.nullable Path.ofData? value = (Path.ofData? value).map some := by
      cases hproper.of_lookup hvalue <;> rfl
    rw [Option.elim_some, hnullable, Option.map_eq_some_iff]
    cases directory with
    | none => simp
    | some directory => simp [Path.ofData?_eq_some_iff]

theorem ofData?_eq_some_iff {form : Data.RecordForm} {entries : List (String × Data)}
    (hproper : (Data.table entries).Proper) {source : SourceSettings} :
    ofData? form (.table entries) = some source ↔
      entries.lookup "path" = some (.text source.path.text) ∧
      entries.lookup "anchor" = some (.text source.anchor) ∧
      entries.lookup "backup_suffix" = some (.text source.backupSuffix) ∧
      entries.lookup "output_dir" = source.outputDirectory.map (.text ·.text) := by
  have htext : ∀ name text, (entries.lookup name).bind Data.asText? = some text ↔
      entries.lookup name = some (.text text) :=
    fun _ => Data.bind_read_iff fun _ _ _ => Data.asText?_eq_some_iff
  have hpath : ∀ path : Path, (entries.lookup "path").bind Path.ofData? = some path ↔
      entries.lookup "path" = some (.text path.text) :=
    Data.bind_read_iff fun _ _ _ => Path.ofData?_eq_some_iff
  rw [← hpath, ← htext, ← htext, ← defaulted_directory_iff hproper, ofData?, Data.required_table,
    Data.required_table, Data.required_table]
  constructor
  · intro h
    obtain ⟨_, _, h⟩ := Option.bind_eq_some_iff.1 h
    obtain ⟨path, hpath, h⟩ := Option.bind_eq_some_iff.1 h
    obtain ⟨anchor, hanchor, h⟩ := Option.bind_eq_some_iff.1 h
    obtain ⟨suffix, hsuffix, h⟩ := Option.bind_eq_some_iff.1 h
    obtain ⟨directory, hdirectory, h⟩ := Option.bind_eq_some_iff.1 h
    obtain rfl := Option.some.inj h
    exact ⟨hpath, hanchor, hsuffix, hdirectory⟩
  · rintro ⟨hpath, hanchor, hsuffix, hdirectory⟩
    rw [hpath, hanchor, hsuffix, hdirectory]
    rfl

end SourceSettings

namespace ImportTable

/-- Lists of lines by name are read from a table that has them, in ascending order. -/
theorem linesByName?_eq_some_iff {entries : List (String × Data)}
    (hdistinct : Keyed.Distinct entries) {byModule : List (String × List String)} :
    ofData?.linesByName? (.table entries) = some byModule ↔ Keyed.Ascending byModule ∧
      ∀ name, entries.lookup name = (byModule.lookup name).map .ofTexts := by
  constructor
  · intro h
    rw [ofData?.linesByName?] at h
    obtain ⟨pairs, hpairs, rfl⟩ := Option.map_eq_some_iff.1 h
    obtain rfl : entries = pairs.map fun pair => (pair.1, Data.ofTexts pair.2) := by
      refine eq_map_of_forall₂ ((forall₂_of_mapM hpairs).imp fun entry pair hpair => ?_)
      obtain ⟨texts, htexts, rfl⟩ := Option.map_eq_some_iff.1 hpair
      exact Prod.ext rfl (Data.asTexts?_eq_some_iff.1 htexts)
    have hkeys : Keyed.Distinct pairs := by
      rwa [Keyed.Distinct, List.map_map] at hdistinct
    refine ⟨Keyed.ascending_sort pairs, fun name => ?_⟩
    rw [Keyed.lookup_map, Keyed.lookup_sort hkeys]
  · rintro ⟨hascending, hlookup⟩
    obtain ⟨pairs, rfl⟩ : ∃ pairs : List (String × List String),
        entries = pairs.map fun pair => (pair.1, Data.ofTexts pair.2) := by
      refine ⟨entries.map fun entry => (entry.1, (byModule.lookup entry.1).getD []), ?_⟩
      rw [List.map_map]
      refine (List.map_id entries).symm.trans (List.map_congr_left fun entry hentry => ?_)
      have hheld := (Keyed.lookup_eq_some_iff hdistinct).2 hentry
      rw [hlookup, Option.map_eq_some_iff] at hheld
      obtain ⟨texts, htexts, heq⟩ := hheld
      rw [Function.comp_apply, htexts, Option.getD_some, heq]
      rfl
    have hkeys : Keyed.Distinct pairs := by
      rwa [Keyed.Distinct, List.map_map] at hdistinct
    rw [linesByName?_map, Option.some.injEq]
    refine Keyed.eq_of_ascending (Keyed.ascending_sort pairs) hascending fun name => ?_
    rw [Keyed.lookup_sort hkeys]
    have hname := hlookup name
    rw [Keyed.lookup_map] at hname
    exact Option.map_injective Data.ofTexts_injective hname

theorem ofData?_eq_some_iff {form : Data.RecordForm} {entries lines : List (String × Data)}
    (hcommon : (entries.lookup "global").isSome = true)
    (hlines : entries.lookup "modules" = some (.table lines))
    (hdistinct : Keyed.Distinct lines) {imports : ImportTable} :
    ofData? form (.table entries) = some imports ↔
      entries.lookup "global" = some (.ofTexts imports.common) ∧
      Keyed.Ascending imports.byModule ∧
      ∀ name, lines.lookup name = (imports.byModule.lookup name).map .ofTexts := by
  obtain ⟨common, hcommon⟩ := Option.isSome_iff_exists.1 hcommon
  rw [← linesByName?_eq_some_iff hdistinct, ofData?, Data.defaulted_table, Data.defaulted_table,
    hcommon, hlines, Option.elim_some, Option.elim_some, Option.some.injEq,
    ← Data.asTexts?_eq_some_iff]
  constructor
  · intro h
    obtain ⟨_, _, h⟩ := Option.bind_eq_some_iff.1 h
    obtain ⟨common, hcommon, h⟩ := Option.bind_eq_some_iff.1 h
    obtain ⟨byModule, hbyModule, h⟩ := Option.bind_eq_some_iff.1 h
    obtain rfl := Option.some.inj h
    exact ⟨hcommon, hbyModule⟩
  · rintro ⟨hcommon, hbyModule⟩
    rw [hcommon, hbyModule]
    rfl

end ImportTable

/-! ## The whole configuration -/

namespace Config

/-- Where the tables of a configuration stand. -/
def tablePlaces : List (List String) :=
  [["source"], ["imports"], ["imports", "modules"], ["logging"]]

/-- The place is that of a setting, which is read by itself. -/
inductive IsSetting : List String → Prop where
  | source {name : String} (h : name ∈ ["path", "anchor", "backup_suffix", "output_dir"]) :
      IsSetting ["source", name]
  | imports : IsSetting ["imports", "global"]
  | lines (name : String) : IsSetting ["imports", "modules", name]
  | logging {name : String} (h : name ∈ ["level", "format"]) : IsSetting ["logging", name]

/-- The document has the tables of a configuration, import lines for all modules and a plan. -/
structure Covers (document : Data) : Prop where
  proper : document.Proper
  tables : ∀ path ∈ tablePlaces, ∃ entries, document.get? path = some (.table entries)
  common : (document.get? ["imports", "global"]).isSome = true
  plan : (document.get? ["modules"]).isSome = true

/-- At the place of every setting the document has what the configuration has there, and what it has
for the plan is read as the plan. -/
structure StandsIn (config : Config) (document : Data) : Prop where
  settings : ∀ path, IsSetting path → document.get? path = config.toData.get? path
  ascending : Keyed.Ascending config.imports.byModule
  plan : ∃ plan, document.get? ["modules"] = some plan ∧
    Plan.ofData? .anyLists plan = some config.modules

theorem get?_directory (config : Config) :
    config.toData.get? ["source", "output_dir"]
      = config.source.outputDirectory.map (.text ·.text) := by
  obtain ⟨⟨path, anchor, suffix, directory⟩, _, _, _⟩ := config
  cases directory <;> rfl

theorem get?_lines (config : Config) (name : String) :
    config.toData.get? ["imports", "modules", name]
      = (config.imports.byModule.lookup name).map .ofTexts := by
  rw [← Keyed.lookup_map]
  exact Data.get?_singleton _ name

/-- At the places of the settings there is what the configuration has, setting by setting. -/
theorem settings_iff {document : Data} {config : Config} :
    (∀ path, IsSetting path → document.get? path = config.toData.get? path) ↔
      (document.get? ["source", "path"] = some (.text config.source.path.text) ∧
        document.get? ["source", "anchor"] = some (.text config.source.anchor) ∧
        document.get? ["source", "backup_suffix"] = some (.text config.source.backupSuffix) ∧
        document.get? ["source", "output_dir"]
          = config.source.outputDirectory.map (.text ·.text)) ∧
      (document.get? ["imports", "global"] = some (.ofTexts config.imports.common) ∧
        ∀ name, document.get? ["imports", "modules", name]
          = (config.imports.byModule.lookup name).map .ofTexts) ∧
      (document.get? ["logging", "level"] = some (.text config.logging.level) ∧
        document.get? ["logging", "format"] = some (.text config.logging.format.name)) := by
  constructor
  · intro h
    refine ⟨⟨h _ (.source (by decide)), h _ (.source (by decide)), h _ (.source (by decide)), ?_⟩,
      ⟨h _ .imports, fun name => ?_⟩, h _ (.logging (by decide)), h _ (.logging (by decide))⟩
    · rw [h _ (.source (by decide)), get?_directory]
    · rw [h _ (.lines name), get?_lines]
  · rintro ⟨⟨hpath, hanchor, hsuffix, hdirectory⟩, ⟨hglobal, hlines⟩, hlevel, hformat⟩ path hsetting
    cases hsetting with
    | source hname =>
      simp only [List.mem_cons, List.not_mem_nil, or_false] at hname
      obtain rfl | rfl | rfl | rfl := hname
      · exact hpath
      · exact hanchor
      · exact hsuffix
      · exact hdirectory.trans config.get?_directory.symm
    | imports => exact hglobal
    | lines name => exact (hlines name).trans (config.get?_lines name).symm
    | logging hname =>
      simp only [List.mem_cons, List.not_mem_nil, or_false] at hname
      obtain rfl | rfl := hname
      · exact hlevel
      · exact hformat

/-- The parts of a configuration are read each from its own entry. -/
theorem ofData?_table_iff {entries : List (String × Data)} {source imports plan logging : Data}
    (hsource : entries.lookup "source" = some source)
    (himports : entries.lookup "imports" = some imports)
    (hplan : entries.lookup "modules" = some plan)
    (hlogging : entries.lookup "logging" = some logging) {config : Config} :
    ofData? .anyLists (.table entries) = some config ↔
      SourceSettings.ofData? .anyLists source = some config.source ∧
      ImportTable.ofData? .anyLists imports = some config.imports ∧
      Plan.ofData? .anyLists plan = some config.modules ∧
      LogSettings.ofData? .anyLists logging = some config.logging := by
  rw [ofData?, Data.defaulted_table, Data.defaulted_table, Data.defaulted_table,
    Data.defaulted_table, hsource, himports, hplan, hlogging, Option.elim_some, Option.elim_some,
    Option.elim_some, Option.elim_some]
  constructor
  · intro h
    obtain ⟨_, _, h⟩ := Option.bind_eq_some_iff.1 h
    obtain ⟨source, hsource, h⟩ := Option.bind_eq_some_iff.1 h
    obtain ⟨imports, himports, h⟩ := Option.bind_eq_some_iff.1 h
    obtain ⟨plan, hplan, h⟩ := Option.bind_eq_some_iff.1 h
    obtain ⟨logging, hlogging, h⟩ := Option.bind_eq_some_iff.1 h
    obtain rfl := Option.some.inj h
    exact ⟨hsource, himports, hplan, hlogging⟩
  · rintro ⟨hsource, himports, hplan, hlogging⟩
    rw [hsource, himports, hplan, hlogging]
    rfl

/-- A document with the tables of a configuration is read as the one that stands in it. -/
theorem ofData?_eq_some_iff {document : Data} (h : Covers document) {config : Config} :
    ofData? .anyLists document = some config ↔ config.StandsIn document := by
  obtain ⟨source, hsource⟩ := h.tables ["source"] (by decide)
  obtain ⟨imports, himports⟩ := h.tables ["imports"] (by decide)
  obtain ⟨lines, hlines⟩ := h.tables ["imports", "modules"] (by decide)
  obtain ⟨logging, hlogging⟩ := h.tables ["logging"] (by decide)
  obtain ⟨plan, hplan⟩ := Option.isSome_iff_exists.1 h.plan
  obtain ⟨entries, rfl⟩ : ∃ entries, document = .table entries := by
    cases document with
    | table entries => exact ⟨entries, rfl⟩
    | _ => cases hsource
  have hcommon := h.common
  have hthere := hplan
  rw [Data.get?_singleton] at hsource himports hlogging hplan
  rw [Data.get?_of_lookup himports, Data.get?_singleton] at hlines hcommon
  have himported := h.proper.of_lookup himports
  have hat : ∀ name, source.lookup name = (Data.table entries).get? ["source", name] :=
    fun name => by rw [Data.get?_of_lookup hsource, Data.get?_singleton]
  have hat' : ∀ name, logging.lookup name = (Data.table entries).get? ["logging", name] :=
    fun name => by rw [Data.get?_of_lookup hlogging, Data.get?_singleton]
  have hat'' : imports.lookup "global" = (Data.table entries).get? ["imports", "global"] := by
    rw [Data.get?_of_lookup himports, Data.get?_singleton]
  have hline : ∀ name, lines.lookup name
      = (Data.table entries).get? ["imports", "modules", name] := fun name => by
    rw [Data.get?_of_lookup himports, Data.get?_of_lookup hlines, Data.get?_singleton]
  rw [ofData?_table_iff hsource himports hplan hlogging,
    SourceSettings.ofData?_eq_some_iff (h.proper.of_lookup hsource),
    ImportTable.ofData?_eq_some_iff hcommon hlines (himported.of_lookup hlines).distinct,
    LogSettings.ofData?_eq_some_iff (h.proper.of_lookup hlogging)]
  simp only [hat, hat', hat'', hline]
  constructor
  · rintro ⟨hsource, ⟨hglobal, hascending, hlines⟩, hread, hlogging⟩
    exact ⟨settings_iff.2 ⟨hsource, ⟨hglobal, hlines⟩, hlogging⟩, hascending, plan, hthere, hread⟩
  · rintro ⟨hsettings, hascending, plan', hplan', hread⟩
    obtain rfl := Option.some.inj (hthere.symm.trans hplan')
    obtain ⟨hsource, ⟨hglobal, hlines⟩, hlogging⟩ := settings_iff.1 hsettings
    exact ⟨hsource, ⟨hglobal, hascending, hlines⟩, hread, hlogging⟩

end Config

end Carver
