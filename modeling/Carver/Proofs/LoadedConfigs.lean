import Carver.Proofs.EnvironmentLayer
import Carver.Proofs.FileSearch
import Carver.Proofs.LayerPrecedence
import Carver.Proofs.MeantDocuments

/-!
# Loaded configurations

A configuration that is loaded has at the place of every setting what the environment has there, or
else what the file has, or else what is built in; the plan is taken as a whole from the first of
them that has one (`Config.load_resolves`). This holds wherever the layers have tables where a
configuration has them, and no variable is put above or into another one. Of the disk only the first
of the files matters that is there, and the order of the variables does not matter at all.
-/

namespace Carver

/-! ## What is laid over what is built in -/

namespace Config

open Environment (Holds found laid settings? valueAt Diverge)

variable {config : Config} {file document : Data} {path : List String}
  {settings others : List (List String × Data)}

/-- What holds settings is a layer, if they have tables where a configuration has them. -/
theorem isLayer_of_holds (hproper : document.Proper) (hholds : Holds settings document)
    (hapart : (settings.map (·.1)).Pairwise Diverge)
    (htables : ∀ path ∈ tablePlaces, ∀ value ∈ found settings path, value.isTable = true) :
    IsLayer document := by
  refine ⟨hproper, hholds.table, fun path hpath value hvalue => ?_⟩
  by_cases hsettled : Environment.Settled settings path
  · have hne : path ≠ [] := by
      rintro rfl
      exact absurd hpath (by decide)
    rw [hholds.get?_of_settled hne hapart hsettled] at hvalue
    exact htables path hpath value hvalue
  · simp only [Environment.Settled, not_forall] at hsettled
    obtain ⟨setting, hsetting, hlead, hne⟩ := hsettled
    obtain ⟨entries, hentries⟩ := hholds.above setting hsetting path hlead hne
    rw [hentries] at hvalue
    exact Option.some.inj hvalue ▸ rfl

/-- In whatever order settings are laid over each other, they make up a layer that holds them. -/
theorem isLayer_laid {environment : List (String × String)}
    (hsettings : settings? environment = some settings) (hapart : Environment.Apart environment)
    (htables : ∀ path ∈ tablePlaces, ∀ value ∈ valueAt environment path, value.isTable = true)
    (hperm : settings.Perm others) : IsLayer (laid others) ∧ Holds settings (laid others) := by
  obtain ⟨hkeys, hproper⟩ := Environment.of_settings? hsettings
  have hdiverge : (settings.map (·.1)).Pairwise Diverge := hkeys ▸ hapart
  have hothers : ∀ setting ∈ others, setting.1 ≠ [] ∧ setting.2.Proper := fun setting hsetting =>
    hproper setting (hperm.mem_iff.2 hsetting)
  have hholds : Holds settings (laid others) :=
    (Environment.holds_laid (fun setting hsetting => (hothers setting hsetting).1)
      (hdiverge.perm (hperm.map _) Environment.Diverge.symm)).perm hperm.symm
  refine ⟨isLayer_of_holds ?_ hholds hdiverge fun path hpath => ?_, hholds⟩
  · exact Environment.proper_laid fun setting hsetting => (hothers setting hsetting).2
  · rw [← Environment.valueAt_eq_found hsettings]
    exact htables path hpath

/-- What a configuration is made of, which stands in all layers, is no table in any of them. -/
theorem StandsIn.leaf (h : config.StandsIn document) (hpath : IsSetting path ∨ path = ["modules"]) :
    ∀ value ∈ document.get? path, value.isTable = false := by
  rcases hpath with hpath | rfl
  · rw [h.settings path hpath]
    exact leaf_of_isSetting hpath
  · obtain ⟨plan, hplan, hread⟩ := h.plan
    intro value hvalue
    rw [hplan] at hvalue
    obtain rfl := Option.some.inj hvalue
    cases plan with
    | table entries => cases hread
    | _ => rfl

/-- No keys lead beyond the places of a configuration that stands in all layers. -/
theorem StandsIn.settled (h : config.StandsIn (layered file document)) (hfile : IsLayer file)
    (hdocument : IsLayer document) (hholds : Holds settings document)
    (hpath : IsSetting path ∨ path = ["modules"]) : Environment.Settled settings path := by
  have hlayers := get?_layered_of_leaf hfile hdocument (hpath.imp_right .inl) (h.leaf hpath)
  refine hholds.settled_of_leaf fun value hvalue => ?_
  rw [hvalue] at hlayers
  exact h.leaf hpath value hlayers

theorem ne_nil_of_isSetting (h : IsSetting path ∨ path = ["modules"]) : path ≠ [] := by
  rcases h with h | rfl
  · cases h <;> exact List.cons_ne_nil _ _
  · exact List.cons_ne_nil _ _

/-- At its places the environment has what the settings have there. -/
theorem StandsIn.get?_document (h : config.StandsIn (layered file document)) (hfile : IsLayer file)
    (hdocument : IsLayer document) (hholds : Holds settings document)
    (hapart : (settings.map (·.1)).Pairwise Diverge)
    (hpath : IsSetting path ∨ path = ["modules"]) : document.get? path = found settings path :=
  hholds.get?_of_settled (ne_nil_of_isSetting hpath) hapart
    (h.settled hfile hdocument hholds hpath)

/-- A configuration stands in the layers whichever document holds the settings. -/
theorem StandsIn.of_holds {other : Data} (h : config.StandsIn (layered file document))
    (hfile : IsLayer file) (hdocument : IsLayer document) (hother : IsLayer other)
    (hholds : Holds settings document) (hholds' : Holds settings other)
    (hapart : (settings.map (·.1)).Pairwise Diverge) : config.StandsIn (layered file other) := by
  have hsame : ∀ path, IsSetting path ∨ path = ["modules"] →
      (layered file other).get? path = (layered file document).get? path := by
    intro path hpath
    have hplace : IsPlace path := hpath.imp_right .inl
    have hbelow := (isLayer_defaults.merge hfile).open_of_isPlace hplace
    rw [layered, layered, Data.get?_merge hother.proper hbelow (hother.open_of_isPlace hplace),
      Data.get?_merge hdocument.proper hbelow (hdocument.open_of_isPlace hplace),
      h.get?_document hfile hdocument hholds hapart hpath,
      hholds'.get?_of_settled (ne_nil_of_isSetting hpath) hapart
        (h.settled hfile hdocument hholds hpath)]
  refine ⟨fun path hpath => ?_, h.ascending, ?_⟩
  · rw [hsame path (.inl hpath), h.settings path hpath]
  · rw [hsame ["modules"] (.inr rfl)]
    exact h.plan

/-- The layers make up the same configuration, or refuse one for the same cause, whichever document
holds the settings. -/
theorem ofLayers_eq_of_holds {other : Data} (hfile : IsLayer file) (hdocument : IsLayer document)
    (hother : IsLayer other) (hholds : Holds settings document) (hholds' : Holds settings other)
    (hapart : (settings.map (·.1)).Pairwise Diverge) :
    ofLayers file document = ofLayers file other := by
  have hread : ofData? .anyLists (layered file document)
      = ofData? .anyLists (layered file other) := by
    refine Option.ext fun config => ?_
    rw [ofData?_eq_some_iff (covers_layered hfile hdocument),
      ofData?_eq_some_iff (covers_layered hfile hother)]
    exact ⟨fun h => h.of_holds hfile hdocument hother hholds hholds' hapart,
      fun h => h.of_holds hfile hother hdocument hholds' hholds hapart⟩
  rw [layered, layered] at hread
  rw [ofLayers, ofLayers, hread]

/-- What a configuration has at every place is what the environment has there, or else what the file
has, or else what is built in; the import lines are those of all layers, and the plan is that of the
uppermost layer with a plan. -/
structure Resolves (config : Config) (environment : List (String × String)) (file : Data) :
    Prop where
  settings : ∀ path, IsSetting path → config.toData.get? path =
    ((valueAt environment path).or (file.get? path)).or (Defaults.config.toData.get? path)
  modules : ∀ name, name ∈ config.imports.byModule.map (·.1) ↔
    (valueAt environment ["imports", "modules", name]).isSome = true ∨
    (file.get? ["imports", "modules", name]).isSome = true ∨
    name ∈ Defaults.config.imports.byModule.map (·.1)
  ascending : Keyed.Ascending config.imports.byModule
  plan : ∃ plan, ((valueAt environment ["modules"]).or (file.get? ["modules"])).or
      (Defaults.config.toData.get? ["modules"]) = some plan ∧
    Plan.ofData? .anyLists plan = some config.modules
  checked : config.check = .ok ()

theorem mem_byModule_iff {name : String} : name ∈ config.imports.byModule.map (·.1) ↔
    (config.toData.get? ["imports", "modules", name]).isSome = true := by
  rw [get?_lines, Option.isSome_map, ← Decidable.not_iff_not, Bool.not_eq_true,
    Option.isSome_eq_false_iff, Option.isNone_iff_eq_none, Keyed.lookup_eq_none_iff_not_mem]

theorem resolves_of_ofLayers {environment : List (String × String)} (hfile : IsLayer file)
    (hdocument : IsLayer document) (hsettings : settings? environment = some settings)
    (hholds : Holds settings document) (hapart : (settings.map (·.1)).Pairwise Diverge)
    (h : ofLayers file document = .ok config) : config.Resolves environment file := by
  obtain ⟨hstands, hcheck⟩ := (ofLayers_eq_ok_iff hfile hdocument).1 h
  have hplaces : ∀ path, IsSetting path ∨ path = ["modules"] →
      (layered file document).get? path = ((valueAt environment path).or (file.get? path)).or
        (Defaults.config.toData.get? path) := by
    intro path hpath
    rw [get?_layered_of_leaf hfile hdocument (hpath.imp_right .inl) (hstands.leaf hpath),
      hstands.get?_document hfile hdocument hholds hapart hpath,
      Environment.valueAt_eq_found hsettings]
  have hsetting : ∀ path, IsSetting path → config.toData.get? path =
      ((valueAt environment path).or (file.get? path)).or (Defaults.config.toData.get? path) :=
    fun path hpath => by rw [← hplaces path (.inl hpath), hstands.settings path hpath]
  refine ⟨hsetting, fun name => ?_, hstands.ascending, ?_, hcheck⟩
  · rw [mem_byModule_iff, mem_byModule_iff, hsetting _ (.lines name), Option.isSome_or,
      Option.isSome_or, Bool.or_eq_true, Bool.or_eq_true, or_assoc]
  · obtain ⟨plan, hplan, hread⟩ := hstands.plan
    exact ⟨plan, by rw [← hplaces ["modules"] (.inr rfl), hplan], hread⟩

/-! ## The file -/

end Config

/-- Whether the path leads to anything. -/
def FileTree.isThere (tree : FileTree) (path : Path) : Bool :=
  match tree.entryAt path with
  | .ok _ => true
  | .error _ => false

theorem FileTree.run_isThere (tree : FileTree) (path : Path) :
    (Disk.isThere path : StateM FileTree Bool).run tree = (tree.isThere path, tree) := by
  rw [Disk.isThere, run_map, run_kindAt, isThere]
  cases tree.entryAt path <;> rfl

namespace Config

open Environment (laid settings? valueAt Diverge)
open FileTree (run_bind run_map run_readText run_findFile run_firstThat run_isThere)

variable {config : Config} {given : Option Path} {environment : List (String × String)}
  {tree after : FileTree}

/-- The files from which one is chosen: the given one, or the usual ones. -/
def candidates : Option Path → List Path
  | some path => [path]
  | none => Defaults.configPaths.map (⟨·⟩)

/-- The first of them that is there. -/
def chosen? (given : Option Path) (tree : FileTree) : Option Path :=
  (candidates given).find? tree.isThere

/-- The document in the file that a path leads to, here or further up; it is empty if there is
none. -/
def documentAt? (tree : FileTree) (path : Path) : Option Data :=
  match tree.findFile path with
  | none => some (.table [])
  | some file => (tree.readText file).toOption.bind Toml.read?

/-- The document in the chosen file; it is empty if there is none. -/
def document? (given : Option Path) (tree : FileTree) : Option Data :=
  (chosen? given tree).elim (some (.table [])) (documentAt? tree)

/-- What the document in the chosen file means. -/
def meant? (given : Option Path) (tree : FileTree) : Option Data :=
  (document? given tree).bind Data.unboxEach?

theorem chooseFile_eq_ok_iff {file : Option Path} :
    (chooseFile given : StateM FileTree _).run tree = (.ok file, after) ↔
      after = tree ∧ file = chosen? given tree ∧ (given.isSome = true → file.isSome = true) := by
  cases given with
  | none =>
    have hrun : (chooseFile none : StateM FileTree _).run tree
        = (.ok (chosen? none tree), tree) := by
      rw [chooseFile, run_map, run_firstThat tree.run_isThere]
      rfl
    rw [hrun, Prod.mk.injEq, Except.ok.injEq]
    exact ⟨fun h => ⟨h.2.symm, h.1.symm, fun hgiven => absurd hgiven Bool.false_ne_true⟩,
      fun h => ⟨h.2.1.symm, h.1.symm⟩⟩
  | some path =>
    rw [chooseFile, run_bind, run_isThere, chosen?, candidates, List.find?_singleton]
    cases tree.isThere path with
    | true =>
      change (Except.ok (some path), tree) = (.ok file, after) ↔ _
      rw [Prod.mk.injEq, Except.ok.injEq, if_pos rfl]
      exact ⟨fun h => ⟨h.2.symm, h.1.symm, fun _ => h.1 ▸ rfl⟩, fun h => ⟨h.2.1.symm, h.1.symm⟩⟩
    | false =>
      refine ⟨fun h => (by cases h), fun h => ?_⟩
      rw [if_neg Bool.false_ne_true] at h
      cases h.2.1 ▸ h.2.2 rfl

theorem fileLayer_eq_ok_iff {path : Path} {layer : Data} :
    (fileLayer path : StateM FileTree _).run tree = (.ok layer, after) ↔
      after = tree ∧ ∃ document, documentAt? tree path = some document ∧
        document.unboxEach? = some layer := by
  rw [fileLayer, run_bind, run_findFile, documentAt?]
  cases tree.findFile path with
  | none =>
    change (Except.ok (Data.table []), tree) = (.ok layer, after) ↔ _
    rw [Prod.mk.injEq, Except.ok.injEq]
    constructor
    · rintro ⟨rfl, rfl⟩
      exact ⟨rfl, _, rfl, rfl⟩
    · rintro ⟨rfl, document, hdocument, hlayer⟩
      obtain rfl := Option.some.inj hdocument
      exact ⟨Option.some.inj hlayer, rfl⟩
  | some file =>
    change StateT.run (Disk.readText file >>= _ : StateM FileTree _) tree = _ ↔ _
    rw [run_bind, run_readText]
    dsimp only
    cases tree.readText file with
    | error fault => exact ⟨nofun, nofun⟩
    | ok text =>
      dsimp only
      cases hlayer : (Toml.read? text).bind Data.unboxEach? with
      | none =>
        refine ⟨nofun, fun ⟨_, document, hdocument, hunbox⟩ => ?_⟩
        rw [show Toml.read? text = some document from hdocument, Option.bind_some, hunbox] at hlayer
        cases hlayer
      | some found =>
        change (Except.ok found, tree) = (.ok layer, after) ↔ _
        rw [Prod.mk.injEq, Except.ok.injEq]
        obtain ⟨document, hdocument, hfound⟩ := Option.bind_eq_some_iff.1 hlayer
        constructor
        · rintro ⟨rfl, rfl⟩
          exact ⟨rfl, document, hdocument, hfound⟩
        · rintro ⟨rfl, other, hother, hunbox⟩
          obtain rfl := Option.some.inj (hdocument.symm.trans hother)
          exact ⟨Option.some.inj (hfound.symm.trans hunbox), rfl⟩

/-- The layers make up a configuration if the lower one is read. -/
theorem ok_layers_iff {lower : Except ConfigError Data} {upper : Data}
    {state : FileTree} :
    (((lower.bind (ofLayers · upper)).mapError LoadFailure.refused, state) = (.ok config, after)) ↔
      after = state ∧ ∃ layer, lower = .ok layer ∧ ofLayers layer upper = .ok config := by
  cases lower with
  | error cause => exact ⟨nofun, nofun⟩
  | ok layer =>
    cases hlayers : ofLayers layer upper with
    | error cause =>
      simp [Except.bind, Except.mapError, hlayers]
    | ok made =>
      simp [Except.bind, Except.mapError, hlayers, eq_comm, and_comm]

/-- What it takes to load a configuration: the chosen file and the environment are read, and the
layers make up the configuration. -/
theorem load_eq_ok_iff :
    (load given environment : StateM FileTree _).run tree = (.ok config, after) ↔
      after = tree ∧ (given.isSome = true → (chosen? given tree).isSome = true) ∧
      ∃ document layer upper, document? given tree = some document ∧
        document.unboxEach? = some layer ∧ Environment.layer? environment = some upper ∧
        ofLayers layer upper = .ok config := by
  rw [load, run_bind]
  rcases hchoose : (chooseFile given : StateM FileTree _).run tree with ⟨_ | file, between⟩
  · refine ⟨nofun, fun ⟨_, hthere, _⟩ => ?_⟩
    rw [chooseFile_eq_ok_iff.2 ⟨rfl, rfl, hthere⟩] at hchoose
    cases hchoose
  · obtain ⟨rfl, rfl, hthere⟩ := chooseFile_eq_ok_iff.1 hchoose
    dsimp only
    cases Environment.layer? environment with
    | none => exact ⟨nofun, nofun⟩
    | some upper =>
      dsimp only
      rw [document?]
      cases hchosen : chosen? given between with
      | none =>
        refine ok_layers_iff.trans (and_congr_right fun _ => ?_)
        constructor
        · rintro ⟨layer, hlayer, hlayers⟩
          exact ⟨hchosen ▸ hthere, .table [], layer, upper, rfl,
            congrArg some (Except.ok.inj hlayer), rfl, hlayers⟩
        · rintro ⟨_, document, layer, upper', hdocument, hunbox, hupper, hlayers⟩
          obtain rfl := Option.some.inj hdocument
          obtain rfl := Option.some.inj hupper
          exact ⟨layer, congrArg Except.ok (Option.some.inj hunbox), hlayers⟩
      | some path =>
        rw [run_bind]
        rcases hlayer : (fileLayer path : StateM FileTree _).run between with ⟨result, state⟩
        refine ok_layers_iff.trans ?_
        constructor
        · rintro ⟨rfl, layer, rfl, hlayers⟩
          obtain ⟨rfl, document, hdocument, hunbox⟩ := fileLayer_eq_ok_iff.1 hlayer
          exact ⟨rfl, fun _ => rfl, document, layer, upper, hdocument, hunbox, rfl, hlayers⟩
        · rintro ⟨rfl, _, document, layer, upper', hdocument, hunbox, hupper, hlayers⟩
          obtain rfl := Option.some.inj hupper
          rw [fileLayer_eq_ok_iff.2 ⟨rfl, document, hdocument, hunbox⟩] at hlayer
          obtain ⟨rfl, rfl⟩ := Prod.mk.inj hlayer
          exact ⟨rfl, layer, rfl, hlayers⟩

/-! ## Precedence -/

/-- The document of the chosen file is a proper table. -/
theorem proper_of_document? {document : Data} (h : document? given tree = some document) :
    document.Proper ∧ document.isTable = true := by
  rw [document?] at h
  cases hchosen : chosen? given tree with
  | none =>
    rw [hchosen] at h
    exact Option.some.inj h ▸ ⟨Data.Proper.empty, rfl⟩
  | some path =>
    rw [hchosen, Option.elim_some, documentAt?] at h
    split at h
    · exact Option.some.inj h ▸ ⟨Data.Proper.empty, rfl⟩
    · obtain ⟨text, _, hread⟩ := Option.bind_eq_some_iff.1 h
      exact Toml.proper_of_read? hread

/-- A configuration that is loaded has what the uppermost layer has that has anything, and it does
not depend on the order of the variables, nor on any file but the chosen one. The layer of the file
is what its document means, and the document itself if there are no boxes in it. -/
theorem load_resolves (hapart : Environment.Apart environment)
    (henvironment : ∀ path ∈ tablePlaces, ∀ value ∈ valueAt environment path, value.isTable = true)
    (hfile : ∀ layer ∈ meant? given tree,
      ∀ path ∈ tablePlaces, ∀ value ∈ layer.get? path, value.isTable = true)
    (hload : (load given environment : StateM FileTree _).run tree = (.ok config, after)) :
    (∃ document layer, document? given tree = some document ∧
      document.unboxEach? = some layer ∧ (document.Literal → layer = document) ∧
      config.Resolves environment layer ∧
      ∀ listed, listed.Perm environment → ∃ settings, settings? listed = some settings ∧
        ofLayers layer (laid settings) = .ok config) ∧
    (∀ listed, listed.Perm environment →
      (load given listed : StateM FileTree _).run tree = (.ok config, after)) ∧
    ∀ other, chosen? given other = chosen? given tree →
      document? given other = document? given tree →
      (load given environment : StateM FileTree _).run other = (.ok config, other) := by
  obtain ⟨rfl, hthere, document, layer, upper, hdocument, hunbox, hupper, hlayers⟩ :=
    load_eq_ok_iff.1 hload
  refine ⟨⟨document, layer, hdocument, hunbox, fun h => h.eq_of_unboxEach? hunbox, ?_⟩,
    fun listed hperm => ?_, fun other hchosen hsame => ?_⟩
  · have hmeant : meant? given after = some layer := by
      rw [meant?, hdocument, Option.bind_some, hunbox]
    obtain ⟨hproper, htable⟩ := proper_of_document? hdocument
    obtain ⟨hlayerProper, hlayerTable⟩ := hproper.of_unboxEach? hunbox
    have hlower : IsLayer layer := ⟨hlayerProper, hlayerTable.trans htable, hfile layer hmeant⟩
    rw [Environment.layer?_eq_laid] at hupper
    obtain ⟨sorted, hsorted, rfl⟩ := Option.map_eq_some_iff.1 hupper
    obtain ⟨settings, hsettings, hperm⟩ :=
      Environment.settings?_perm (Environment.assignments_sort_perm hapart) hsorted
    have hdiverge : (settings.map (·.1)).Pairwise Diverge :=
      (Environment.of_settings? hsettings).1 ▸ hapart
    obtain ⟨hlayer, hholds⟩ := isLayer_laid hsettings hapart henvironment hperm.symm
    refine ⟨resolves_of_ofLayers hlower hlayer hsettings hholds hdiverge hlayers,
      fun listed hlisted => ?_⟩
    obtain ⟨others, hothers, hperm'⟩ :=
      Environment.settings?_perm (hlisted.symm.filterMap _) hsettings
    obtain ⟨hlayer', hholds'⟩ := isLayer_laid hsettings hapart henvironment hperm'
    exact ⟨others, hothers, by
      rw [← ofLayers_eq_of_holds hlower hlayer hlayer' hholds hholds' hdiverge, hlayers]⟩
  · refine load_eq_ok_iff.2 ⟨rfl, hthere, document, layer, upper, hdocument, hunbox, ?_, hlayers⟩
    rw [Environment.layer?_perm hapart hperm, hupper]
  · exact load_eq_ok_iff.2 ⟨rfl, hchosen ▸ hthere, document, layer, upper, hsame ▸ hdocument,
      hunbox, hupper, hlayers⟩

/-- A file that sets the level, has lines for one more module, and plans no modules. -/
def layeredText : Text :=
  "modules = []\n[logging]\nlevel = \"warn\"\n[imports.modules]\nnew = []\n".toList

/-- A directory with that file at a usual place. -/
def layeredTree : FileTree :=
  ⟨["work"], [(["work"], .directory), (["work", "modsplit.toml"], .file layeredText.encode)]⟩

/-- Variables that set the level and the lines for a module. -/
def layeredVariables : List (String × String) :=
  [("MODSPLIT__LOGGING__LEVEL", "debug"), ("HOME", "/"),
    ("MODSPLIT__IMPORTS__MODULES", "\x7bgame = []\x7d")]

theorem load_resolves_sample :
    Environment.Apart layeredVariables ∧
    (∀ path ∈ tablePlaces, ∀ value ∈ valueAt layeredVariables path, value.isTable = true) ∧
    (∀ layer ∈ meant? none layeredTree,
      ∀ path ∈ tablePlaces, ∀ value ∈ layer.get? path, value.isTable = true) ∧
    ∃ config after, (load none layeredVariables : StateM FileTree _).run layeredTree
        = (.ok config, after) ∧ config.logging.level = "debug" ∧
      (∃ document layer, document? none layeredTree = some document ∧
        document.unboxEach? = some layer ∧ (document.Literal → layer = document) ∧
        config.Resolves layeredVariables layer ∧
        ∀ listed, listed.Perm layeredVariables → ∃ settings, settings? listed = some settings ∧
          ofLayers layer (laid settings) = .ok config) ∧
      (∀ listed, listed.Perm layeredVariables →
        (load none listed : StateM FileTree _).run layeredTree = (.ok config, after)) ∧
      ∀ other, chosen? none other = chosen? none layeredTree →
        document? none other = document? none layeredTree →
        (load none layeredVariables : StateM FileTree _).run other = (.ok config, other) := by
  have hapart : Environment.Apart layeredVariables := by decide +kernel
  have henvironment : ∀ path ∈ tablePlaces, ∀ value ∈ valueAt layeredVariables path,
      value.isTable = true := by
    decide +kernel
  have hfile : ∀ layer ∈ meant? none layeredTree,
      ∀ path ∈ tablePlaces, ∀ value ∈ layer.get? path, value.isTable = true := by
    decide +kernel
  have hlevel : ((load none layeredVariables : StateM FileTree _).run layeredTree).1.toOption.map
      (·.logging.level) = some "debug" := by
    decide +kernel
  rcases hload : (load none layeredVariables : StateM FileTree _).run layeredTree
    with ⟨_ | config, after⟩
  · rw [hload] at hlevel
    cases hlevel
  · rw [hload] at hlevel
    exact ⟨hapart, henvironment, hfile, config, after, rfl, Option.some.inj hlevel,
      load_resolves hapart henvironment hfile hload⟩

/-- A file with a box, which stands for the table of the source. -/
def boxedTree : FileTree :=
  ⟨["work"], [(["work"], .directory), (["work", "c.toml"],
    .file (Text.encode "modules = []\n[source.___figment_value_value]\npath = \"x.rs\"\n".toList))]⟩

/-- With a box in the file the layers do not decide by what they have. -/
theorem not_forall_resolves :
    ¬ ∀ (given : Option Path) (environment : List (String × String)) (tree after : FileTree)
      (config : Config), Environment.Apart environment →
      (∀ path ∈ tablePlaces, ∀ value ∈ valueAt environment path, value.isTable = true) →
      (∀ document ∈ document? given tree,
        ∀ path ∈ tablePlaces, ∀ value ∈ document.get? path, value.isTable = true) →
      (load given environment : StateM FileTree _).run tree = (.ok config, after) →
      ∃ document, document? given tree = some document ∧
        config.Resolves environment document := by
  intro hall
  have hpath : ((load (some ⟨"c.toml"⟩) [] : StateM FileTree _).run boxedTree).1.toOption.map
      (·.source.path.text) = some "x.rs" := by
    decide +kernel
  have hbuiltIn : ∀ document ∈ document? (some ⟨"c.toml"⟩) boxedTree,
      (document.get? ["source", "path"]).isNone = true := by
    decide +kernel
  rcases hload : (load (some ⟨"c.toml"⟩) [] : StateM FileTree _).run boxedTree
    with ⟨_ | config, after⟩
  · rw [hload] at hpath
    cases hpath
  · obtain ⟨document, hdocument, hresolves⟩ := hall (some ⟨"c.toml"⟩) [] boxedTree after config
      List.Pairwise.nil (by decide +kernel) (by decide +kernel) hload
    have hsource := hresolves.settings ["source", "path"] (.source (by decide))
    rw [Option.isNone_iff_eq_none.1 (hbuiltIn document hdocument)] at hsource
    rw [hload] at hpath
    have hread : config.source.path.text = "x.rs" := Option.some.inj hpath
    have hdefault : Data.text config.source.path.text = .text "src/main.rs" :=
      Option.some.inj hsource
    rw [hread] at hdefault
    exact absurd (Data.text.inj hdefault) (by decide)

end Config

end Carver
