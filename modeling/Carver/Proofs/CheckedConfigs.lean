import Carver.Proofs.Demands
import Carver.Proofs.OverwriteGuard

/-!
# Checked configurations

A configuration passes its check exactly if it is safe, and is answered with the first unmet demand
otherwise (`Config.check_exact`). Then the files of its modules are told apart from each other and
from the source by their paths (`Config.Safe.spreads`).
-/

namespace Carver

namespace Config

variable {config : Config}

theorem Safe.isFileName (h : config.Safe) {entry : ModulePlan} (hentry : entry ∈ config.modules) :
    Path.IsFileName (entry.name ++ ".rs") :=
  isFileName_of_isUsable (Identifier.isUsable_iff.2 (h.modules_named entry hentry))

/-- The job of a configuration has the files of its modules where the configuration has them: both
take the output directory if there is one, and the directory of the source otherwise. -/
theorem modulePath_ofConfig (config : Config) (name : String) :
    (Job.ofConfig config).modulePath name = config.source.modulePath name := by
  rw [Job.modulePath, Job.directory, SourceSettings.modulePath]
  cases hdirectory : config.source.outputDirectory with
  | some directory => simp only [Job.ofConfig, hdirectory]
  | none => simp only [Job.ofConfig, hdirectory]

/-- What is known of the files of the modules: no two of them have the same path, each has the name
of its module and lies in the output directory, and no run takes one of them for the source. -/
structure Spreads (config : Config) : Prop where
  apart : config.modules.Pairwise fun entry other =>
    ¬ (config.source.modulePath entry.name).Same (config.source.modulePath other.name)
  parent : ∀ entry ∈ config.modules, ∃ parent,
    (config.source.modulePath entry.name).parent = some parent ∧
      parent.Same (Job.ofConfig config).directory
  fileName : ∀ entry ∈ config.modules,
    (config.source.modulePath entry.name).fileName = some (entry.name ++ ".rs")
  agrees : ∀ name, (Job.ofConfig config).modulePath name = config.source.modulePath name
  allowed : ∀ (dryRun : Bool) (imports : ImportTable) (tree : FileTree) (name : String),
    ({ Job.ofConfig config with dryRun }.runOn imports config.modules tree).1
      ≠ .error (.overSource name)

theorem Safe.spreads (h : config.Safe) : config.Spreads where
  apart := by
    have hdistinct := h.distinct
    rw [List.Nodup, List.pairwise_map] at hdistinct
    refine hdistinct.imp_of_mem fun {entry other} hentry hother hne hsame => hne ?_
    rw [Path.Same, ← modulePath_ofConfig, ← modulePath_ofConfig, Job.modulePath, Job.modulePath,
      Path.components_join _ (h.isFileName hentry),
      Path.components_join _ (h.isFileName hother)] at hsame
    have hfile := (List.append_singleton_inj.1 hsame).2
    rw [Component.name.injEq] at hfile
    exact (String.append_left_inj ".rs").1 hfile
  parent entry hentry := by
    rw [← modulePath_ofConfig]
    exact Path.exists_parent_join _ (h.isFileName hentry)
  fileName entry hentry := by
    rw [← modulePath_ofConfig]
    exact Path.fileName_join _ (h.isFileName hentry)
  agrees := modulePath_ofConfig config
  allowed dryRun imports tree name hrefused := by
    obtain ⟨entry, hentry, _, hover⟩ := Job.exists_entry_of_overSource (Prod.ext hrefused rfl)
    exact h.apart entry hentry (of_decide_eq_true hover)

/-- The check accepts safe configurations alone, and answers every other one with the first demand
that is not met. What it accepts has its module files apart from each other and from the source. -/
theorem check_exact (config : Config) :
    (config.check = .ok () ↔ config.Safe) ∧
    (∀ cause, config.check = .error cause ↔ FirstUnmet cause config.demands) ∧
    (config.check = .ok () → config.Spreads) := by
  refine ⟨check_eq_ok_iff, fun cause => (answers_check config).eq_error_iff, fun hcheck => ?_⟩
  exact (check_eq_ok_iff.1 hcheck).spreads

/-- The built-in configuration is accepted. -/
example : Defaults.config.check.isOk = true := by decide +kernel

end Config

end Carver
