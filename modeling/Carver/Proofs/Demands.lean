import Carver.Config.Check
import Carver.Proofs.Names

/-!
# Demands on configurations

What is asked of a configuration is a list of demands in a fixed order (`Config.demands`). The check
answers with the first one that is not met (`Config.answers_check`): each step of it answers for a
part of the list, and steps in a row answer for the parts in a row (`Answers.bind`). All demands are
met exactly if the configuration is safe (`Config.check_eq_ok_iff`).
-/

namespace Carver

/-! ## Demands -/

/-- What is asked, and the cause that is reported unless it is met. -/
structure Demand where
  cause : ConfigError
  met : Prop

/-- The first demand that is not met has this cause. -/
inductive FirstUnmet (cause : ConfigError) : List Demand → Prop
  | here {met : Prop} {rest : List Demand} (h : ¬ met) : FirstUnmet cause (⟨cause, met⟩ :: rest)
  | later {demand : Demand} {rest : List Demand} (h : demand.met) (hrest : FirstUnmet cause rest) :
    FirstUnmet cause (demand :: rest)

namespace FirstUnmet

variable {cause other : ConfigError} {demands more : List Demand}

theorem append (h : FirstUnmet cause demands) (more : List Demand) :
    FirstUnmet cause (demands ++ more) := by
  induction h with
  | here h => exact .here h
  | later h _ ih => exact .later h ih

theorem of_met (hmet : ∀ demand ∈ demands, demand.met) (h : FirstUnmet cause more) :
    FirstUnmet cause (demands ++ more) := by
  induction demands with
  | nil => exact h
  | cons demand rest ih =>
    rw [List.forall_mem_cons] at hmet
    exact .later hmet.1 (ih hmet.2)

theorem not_forall_met (h : FirstUnmet cause demands) : ¬ ∀ demand ∈ demands, demand.met := by
  induction h with
  | here h => exact fun hmet => h (hmet _ List.mem_cons_self)
  | later _ _ ih => exact fun hmet => ih (List.forall_mem_cons.1 hmet).2

theorem unique (h : FirstUnmet cause demands) (hother : FirstUnmet other demands) :
    cause = other := by
  induction h with
  | here h =>
    cases hother with
    | here => rfl
    | later hmet => exact absurd hmet h
  | later h _ ih =>
    cases hother with
    | here hunmet => exact absurd h hunmet
    | later _ hrest => exact ih hrest

end FirstUnmet

/-- A check answers for demands: it passes if all of them are met, and it fails with the cause of
the first one that is not. -/
def Answers : Except ConfigError Unit → List Demand → Prop
  | .ok (), demands => ∀ demand ∈ demands, demand.met
  | .error cause, demands => FirstUnmet cause demands

namespace Answers

variable {first second : Except ConfigError Unit} {demands more : List Demand}

theorem nil : Answers (.ok ()) [] :=
  List.forall_mem_nil _

/-- The second check is made only if the first one has passed. -/
theorem bind (h : Answers first demands) (hmore : Answers second more) :
    Answers (first >>= fun _ => second) (demands ++ more) := by
  cases first with
  | error cause => exact h.append more
  | ok done =>
    cases second with
    | error cause => exact .of_met h hmore
    | ok done => exact List.forall_mem_append.2 ⟨h, hmore⟩

theorem of_unless {cause : ConfigError} {holds : Bool} {met : Prop} (h : holds = true ↔ met) :
    Answers (cause.unless holds) [⟨cause, met⟩] := by
  cases holds with
  | true => exact List.forall_mem_singleton.2 (h.1 rfl)
  | false => exact .here fun hmet => Bool.noConfusion (h.2 hmet)

theorem unless_bind {cause : ConfigError} {holds : Bool} {met : Prop} (h : holds = true ↔ met)
    (hmore : Answers second more) :
    Answers (cause.unless holds >>= fun _ => second) (⟨cause, met⟩ :: more) :=
  (of_unless h).bind hmore

theorem eq_ok_iff (h : Answers first demands) :
    first = .ok () ↔ ∀ demand ∈ demands, demand.met := by
  cases first with
  | error cause => exact iff_of_false (by simp) h.not_forall_met
  | ok done => exact iff_of_true rfl h

theorem eq_error_iff (h : Answers first demands) {cause : ConfigError} :
    first = .error cause ↔ FirstUnmet cause demands := by
  cases first with
  | error reported =>
    rw [Except.error.injEq]
    constructor
    · rintro rfl
      exact h
    · exact h.unique
  | ok done => exact iff_of_false (by simp) fun hunmet => hunmet.not_forall_met h

end Answers

/-! ## What the checks ask for -/

open Identifier (IsName isUsable_iff)

namespace SourceSettings

/-- What is asked of an entry that comes after other entries. -/
def entryDemands (source : SourceSettings) (earlier : Plan) (entry : ModulePlan) : List Demand :=
  [⟨.moduleName entry.name, IsName entry.name⟩,
    ⟨.overSource entry.name source.path, ¬ (source.modulePath entry.name).Same source.path⟩,
    ⟨.repeatedModule entry.name, ∀ other ∈ earlier, other.name ≠ entry.name⟩]
  ++ (entry.functions ++ entry.structs).map fun name =>
    ⟨.definitionName name entry.name, IsName name⟩

/-- What is asked of entries that come after other entries, one after the other. -/
def planDemands (source : SourceSettings) (earlier : Plan) : Plan → List Demand
  | [] => []
  | entry :: rest =>
    source.entryDemands earlier entry ++ source.planDemands (earlier ++ [entry]) rest

variable {source : SourceSettings} {earlier : Plan} {seen : List String}

theorem answers_names (names : List String) (holder : String) :
    Answers
      (match names.find? (!Identifier.isUsable ·) with
        | none => return ()
        | some name => throw (.definitionName name holder))
      (names.map fun name => ⟨.definitionName name holder, IsName name⟩) := by
  cases hfind : names.find? (!Identifier.isUsable ·) with
  | none =>
    refine List.forall_mem_map.2 fun name hname => isUsable_iff.1 ?_
    simpa using List.find?_eq_none.1 hfind name hname
  | some name =>
    obtain ⟨hunusable, before, after, rfl, hbefore⟩ := List.find?_eq_some_iff_append.1 hfind
    rw [List.map_append, List.map_cons]
    refine .of_met (List.forall_mem_map.2 fun earlier hearlier => isUsable_iff.1 ?_) (.here ?_)
    · simpa using hbefore earlier hearlier
    · rw [← isUsable_iff]
      simpa using hunusable

theorem answers_checkEntry (hseen : ∀ name, name ∈ seen ↔ ∃ other ∈ earlier, other.name = name)
    (entry : ModulePlan) :
    Answers (source.checkEntry seen entry) (source.entryDemands earlier entry) := by
  refine .unless_bind isUsable_iff (.unless_bind ?_ (.unless_bind ?_ ?_))
  · rw [Bool.not_eq_true', decide_eq_false_iff_not]
  · simp [hseen]
  · exact answers_names (entry.functions ++ entry.structs) entry.name

/-- The names that the check carries along are those of the entries before. -/
theorem answers_checkPlan (hseen : ∀ name, name ∈ seen ↔ ∃ other ∈ earlier, other.name = name)
    (plan : Plan) : Answers (source.checkPlan seen plan) (source.planDemands earlier plan) := by
  induction plan generalizing seen earlier with
  | nil => exact .nil
  | cons entry rest ih =>
    refine .bind (answers_checkEntry hseen entry) (ih fun name => ?_)
    rw [List.mem_cons, hseen]
    simp [or_and_right, exists_or, or_comm, eq_comm]

theorem entryDemands_met_iff (entry : ModulePlan) :
    (∀ demand ∈ source.entryDemands earlier entry, demand.met) ↔
      (IsName entry.name ∧ (∀ name ∈ entry.functions ++ entry.structs, IsName name) ∧
        ¬ (source.modulePath entry.name).Same source.path) ∧
      ∀ other ∈ earlier, other.name ≠ entry.name := by
  rw [entryDemands, List.forall_mem_append, List.forall_mem_map]
  simp only [List.forall_mem_cons, List.mem_nil_iff, false_implies, implies_true, and_true]
  constructor
  · rintro ⟨⟨hname, hapart, hfresh⟩, hdefinitions⟩
    exact ⟨⟨hname, hdefinitions, hapart⟩, hfresh⟩
  · rintro ⟨⟨hname, hdefinitions, hapart⟩, hfresh⟩
    exact ⟨⟨hname, hapart, hfresh⟩, hdefinitions⟩

/-- Every entry meets its demands if the entries have usable names and are told apart from the
source, from each other and from those before. -/
theorem planDemands_met_iff (plan : Plan) :
    (∀ demand ∈ source.planDemands earlier plan, demand.met) ↔
      (∀ entry ∈ plan, IsName entry.name ∧
        (∀ name ∈ entry.functions ++ entry.structs, IsName name) ∧
        ¬ (source.modulePath entry.name).Same source.path) ∧
      (plan.map (·.name)).Nodup ∧ ∀ entry ∈ plan, ∀ other ∈ earlier, other.name ≠ entry.name := by
  -- An entry comes before all that follow it, so the induction is over every list of earlier ones.
  induction plan generalizing earlier with
  | nil => simp [planDemands]
  | cons entry rest ih =>
    rw [planDemands, List.forall_mem_append, entryDemands_met_iff, ih, List.forall_mem_cons,
      List.forall_mem_cons, List.map_cons, List.nodup_cons]
    constructor
    · rintro ⟨⟨hentry, hfresh⟩, hrest, hnodup, hlater⟩
      refine ⟨⟨hentry, hrest⟩, ⟨fun hmem => ?_, hnodup⟩, hfresh, fun later hmem other hother =>
        hlater later hmem other (List.mem_append_left _ hother)⟩
      obtain ⟨later, hlatermem, hname⟩ := List.mem_map.1 hmem
      exact hlater later hlatermem entry (by simp) hname.symm
    · rintro ⟨⟨hentry, hrest⟩, ⟨hnew, hnodup⟩, hfresh, hlater⟩
      refine ⟨⟨hentry, hfresh⟩, hrest, hnodup, fun later hmem => ?_⟩
      rw [List.forall_mem_append, List.forall_mem_singleton]
      exact ⟨hlater later hmem, fun hname => hnew (List.mem_map.2 ⟨later, hmem, hname.symm⟩)⟩

end SourceSettings

/-- Nothing stands in the way of a run with this configuration. -/
structure Config.Safe (config : Config) : Prop where
  source_ne : config.source.path.text ≠ ""
  suffix_ne : config.source.backupSuffix ≠ ""
  modules_named : ∀ entry ∈ config.modules, IsName entry.name
  definitions_named : ∀ entry ∈ config.modules, ∀ name ∈ entry.functions ++ entry.structs,
    IsName name
  distinct : (config.modules.map (·.name)).Nodup
  apart : ∀ entry ∈ config.modules,
    ¬ (config.source.modulePath entry.name).Same config.source.path
  level_mem : config.logging.level ∈ ["trace", "debug", "info", "warn", "error"]

namespace Config

/-- What is asked of a configuration. -/
def demands (config : Config) : List Demand :=
  [⟨.emptySource, config.source.path.text ≠ ""⟩, ⟨.emptySuffix, config.source.backupSuffix ≠ ""⟩]
  ++ config.source.planDemands [] config.modules
  ++ [⟨.logLevel config.logging.level, config.logging.level ∈ levelNames⟩]

variable {config : Config}

theorem answers_check (config : Config) : Answers config.check config.demands := by
  have hplan : Answers (config.source.checkPlan [] config.modules)
      (config.source.planDemands [] config.modules) :=
    SourceSettings.answers_checkPlan (by simp) config.modules
  refine .unless_bind bne_iff_ne (.unless_bind bne_iff_ne (hplan.bind (.of_unless ?_)))
  exact List.contains_iff_mem

theorem demands_met_iff : (∀ demand ∈ config.demands, demand.met) ↔ config.Safe := by
  rw [demands, List.forall_mem_append, List.forall_mem_append,
    SourceSettings.planDemands_met_iff]
  simp only [List.forall_mem_cons, List.mem_nil_iff, false_implies, implies_true, and_true]
  constructor
  · rintro ⟨⟨⟨hsource, hsuffix⟩, hentries, hdistinct⟩, hlevel⟩
    exact ⟨hsource, hsuffix, fun entry h => (hentries entry h).1,
      fun entry h => (hentries entry h).2.1, hdistinct, fun entry h => (hentries entry h).2.2,
      hlevel⟩
  · intro h
    exact ⟨⟨⟨h.source_ne, h.suffix_ne⟩, fun entry hentry => ⟨h.modules_named entry hentry,
      h.definitions_named entry hentry, h.apart entry hentry⟩, h.distinct⟩, h.level_mem⟩

theorem check_eq_ok_iff : config.check = .ok () ↔ config.Safe :=
  (answers_check config).eq_ok_iff.trans demands_met_iff

end Config

end Carver
