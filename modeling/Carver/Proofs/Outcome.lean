import Carver.Proofs.RunEffect

/-!
# What a run answers

`Job.runOnUnder_eq` and `Job.runOn_eq` tell a run in one equation, whatever comes of it: which
failure ends it, and which steps follow each other if none does. What is reported on a module
depends on the disk only by the status of its file (`Job.row`), whether the run is dry or not.
-/

namespace Carver

namespace FileTree

/-- Whether the path leads to a file. -/
def isFile (tree : FileTree) (path : Path) : Bool :=
  match tree.entryAt path with
  | .ok (.file _) => true
  | _ => false

theorem run_isFile (tree : FileTree) (path : Path) :
    (Disk.isFile path : StateM FileTree Bool).run tree = (tree.isFile path, tree) := by
  rw [Disk.isFile, run_map, run_kindAt, isFile]
  cases tree.entryAt path with
  | error fault => rfl
  | ok entry => cases entry <;> rfl

/-- A file has bytes, and only a file has. -/
theorem isFile_iff {tree : FileTree} {path : Path} :
    tree.isFile path = true ↔ ∃ bytes, tree.readBytes path = .ok bytes := by
  rw [isFile, readBytes]
  cases tree.entryAt path with
  | error fault => simp
  | ok entry => cases entry <;> simp

theorem isFile_of_readText {tree : FileTree} {path : Path} {text : Text}
    (h : tree.readText path = .ok text) : tree.isFile path = true := by
  rw [readText] at h
  split at h
  · cases h
  · rename_i bytes hread
    exact isFile_iff.2 ⟨bytes, hread⟩

end FileTree

namespace Job

open FileTree

/-- A run under refusals, step by step: each step is made on the tree that the step before has
left. -/
theorem runOnUnder_eq (refusals : Refusals) (job : Job) (imports : ImportTable) (plan : Plan)
    (tree : FileTree) :
    job.runOnUnder refusals imports plan tree =
      if tree.isFile job.source then
        match plan.find? fun entry => job.overwrites entry.name with
        | some entry => (.error (.overSource entry.name), tree)
        | none =>
          match (job.backUp : StateM FileTree _).run tree with
          | (.error fault, copied) => (.error (.backupFailed fault), copied)
          | (.ok status, copied) =>
            match copied.readText job.source with
            | .error fault => (.error (.unreadable fault), copied)
            | .ok text =>
              match splitUnder refusals text plan with
              | .error stop => (.error (.patternRefused stop), copied)
              | .ok parts =>
                let (modules, written) :=
                  (job.writeModules imports (plan.zip parts.modules) : StateM FileTree _).run copied
                let (updated, last) :=
                  (job.updateSource parts.remaining modules : StateM FileTree _).run written
                (.ok ⟨parts, status, modules, updated⟩, last)
      else (.error .sourceMissing, tree) := by
  rw [runOnUnder, runUnder, run_bind, run_isFile]
  cases tree.isFile job.source with
  | false => rfl
  | true =>
    rw [if_pos rfl]
    cases plan.find? fun entry => job.overwrites entry.name with
    | some entry => rfl
    | none =>
      change (job.backUp >>= _ : StateM FileTree _).run tree = _
      rw [run_bind]
      generalize (job.backUp : StateM FileTree (Except Fault WriteStatus)).run tree = answer
      obtain ⟨_ | status, copied⟩ := answer
      · rfl
      · change StateT.run (match copied.readText job.source with
          | .error fault => _
          | .ok text => _) copied = match copied.readText job.source with
          | .error fault => _
          | .ok text => _
        cases copied.readText job.source with
        | error fault => rfl
        | ok text =>
          dsimp only
          cases splitUnder refusals text plan <;> rfl

/-- If nothing is said against the plan, its run under refusals is its run. -/
theorem runOnUnder_eq_runOn {refusals : Refusals} {plan : Plan} (h : plan.against refusals = none)
    (job : Job) (imports : ImportTable) (tree : FileTree) :
    job.runOnUnder refusals imports plan tree = job.runOn imports plan tree := by
  change _ = job.runOnUnder (fun _ => none) imports plan tree
  simp only [runOnUnder_eq, splitUnder_eq_ok h, splitUnder_eq_ok (against_none plan)]

/-- A run, step by step. -/
theorem runOn_eq (job : Job) (imports : ImportTable) (plan : Plan) (tree : FileTree) :
    job.runOn imports plan tree =
      if tree.isFile job.source then
        match plan.find? fun entry => job.overwrites entry.name with
        | some entry => (.error (.overSource entry.name), tree)
        | none =>
          match (job.backUp : StateM FileTree _).run tree with
          | (.error fault, copied) => (.error (.backupFailed fault), copied)
          | (.ok status, copied) =>
            match copied.readText job.source with
            | .error fault => (.error (.unreadable fault), copied)
            | .ok text =>
              let (modules, written) :=
                (job.writeModules imports (plan.zip (split text plan).modules)
                  : StateM FileTree _).run copied
              let (updated, last) :=
                (job.updateSource (split text plan).remaining modules : StateM FileTree _).run
                  written
              (.ok ⟨split text plan, status, modules, updated⟩, last)
      else (.error .sourceMissing, tree) := by
  rw [← runOnUnder_eq_runOn (against_none plan), runOnUnder_eq]
  simp only [splitUnder_eq_ok (against_none plan)]

/-! ## Rows of modules -/

/-- What is reported on a module, given what came of its file. -/
def row (job : Job) (share : ModuleShare) (status : WriteStatus) :
    ModuleReport × Option FileWrite :=
  let report : ModuleReport := ⟨share.name, share.outcomes, share.fragments.length, none⟩
  if share.fragments.isEmpty then (report, none)
  else
    let path := job.modulePath share.name
    ({ report with file := if status.isDone then some path else none },
      some ⟨path, .module, status⟩)

/-- The rows tell of the modules in order, each with a possible status. -/
inductive Rows (job : Job) (possible : WriteStatus → Prop) :
    List (ModulePlan × ModuleShare) → List (ModuleReport × Option FileWrite) → Prop
  | nil : Rows job possible [] []
  | cons {pair : ModulePlan × ModuleShare} {status : WriteStatus}
      {pairs : List (ModulePlan × ModuleShare)} {rows : List (ModuleReport × Option FileWrite)} :
      possible status → Rows job possible pairs rows →
      Rows job possible (pair :: pairs) (job.row pair.2 status :: rows)

/-- On any disk, writing the files of the modules gives rows with statuses that files can get. -/
theorem rows_writeModules {σ : Type} [Disk (StateM σ)] (job : Job) (imports : ImportTable)
    {possible : WriteStatus → Prop}
    (hwrite : ∀ path text state,
      possible ((job.writeFile path text : StateM σ WriteStatus).run state).1)
    (pairs : List (ModulePlan × ModuleShare)) (state : σ) :
    job.Rows possible pairs ((job.writeModules imports pairs : StateM σ _).run state).1 := by
  induction pairs generalizing state with
  | nil => exact .nil
  | cons pair pairs ih =>
    obtain ⟨entry, share⟩ := pair
    have hrow : ((job.writeModule imports entry share : StateM σ _).run state).1
        = job.row share ((job.writeFile (job.modulePath share.name)
          (Module.content share.name share.fragments imports entry.imports)
            : StateM σ WriteStatus).run state).1 := by
      rw [writeModule, row]
      split <;> rfl
    rw [writeModules, run_bind, hrow]
    exact .cons (hwrite _ _ state) (ih _)

namespace Rows

variable {job : Job} {possible : WriteStatus → Prop} {pairs : List (ModulePlan × ModuleShare)}
  {rows : List (ModuleReport × Option FileWrite)}

/-- Files belong to modules and lie at their paths. -/
theorem path_eq (h : job.Rows possible pairs rows) {file : FileWrite}
    (hfile : file ∈ filesOf rows) :
    file.role = .module ∧ ∃ pair ∈ pairs, file.path = job.modulePath pair.2.name := by
  induction h with
  | nil => simp at hfile
  | @cons pair status pairs rows _ _ ih =>
    rw [row] at hfile
    split at hfile
    · rw [filesOf_cons_none] at hfile
      obtain ⟨hrole, other, hother, hpath⟩ := ih hfile
      exact ⟨hrole, other, by simp [hother], hpath⟩
    · rw [filesOf_cons_some, List.mem_cons] at hfile
      rcases hfile with rfl | hfile
      · exact ⟨rfl, pair, by simp, rfl⟩
      · obtain ⟨hrole, other, hother, hpath⟩ := ih hfile
        exact ⟨hrole, other, by simp [hother], hpath⟩

/-- If one status alone means that a file is done, and all files are, the rows are determined. -/
theorem eq_map (h : job.Rows possible pairs rows) {status : WriteStatus}
    (hstatus : ∀ other, possible other → other.isDone = true → other = status)
    (hdone : ∀ file ∈ filesOf rows, file.status.isDone = true) :
    rows = pairs.map fun pair => job.row pair.2 status := by
  induction h with
  | nil => rfl
  | @cons pair other pairs rows hother _ ih =>
    rw [List.map_cons]
    by_cases hempty : pair.2.fragments.isEmpty = true
    · have hnone : job.row pair.2 other = job.row pair.2 status := by
        simp [row, hempty]
      rw [hnone] at hdone ⊢
      rw [ih ?_]
      intro file hfile
      refine hdone file ?_
      simpa [row, hempty] using hfile
    · have hsome : filesOf (job.row pair.2 other :: rows)
          = ⟨job.modulePath pair.2.name, .module, other⟩ :: filesOf rows := by
        simp [row, hempty]
      rw [hsome, List.forall_mem_cons] at hdone
      rw [hstatus other hother hdone.1, ih hdone.2]

end Rows

end Job

end Carver
