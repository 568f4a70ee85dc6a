import Carver.Proofs.DeclaredSource
import Carver.Proofs.DryRun
import Carver.Proofs.FailedRuns
import Carver.Proofs.StoredFiles

/-!
# Running the same plan again

After a run that reports success the source declares the modules that received something, and a
second run by the same plan finds nothing in it (`FunctionSource.split_declared`). So no module has
a file, and the source is written with the text that it has. That this goes through is owed to the
first run: it has written the copy and the source, and so they can be written again
(`exists_idle_runOn`). The copy alone has changed in the end (`exists_idle_rerun`).
-/

namespace Carver

namespace Job

open FileTree FunctionSource

/-! ## Runs that find nothing -/

/-- The run was successful, found nothing that the plan asks for, and changed the copy at most. -/
structure Idle (job : Job) (plan : Plan) (tree : FileTree) (report : Report) (last : FileTree) :
    Prop where
  success : report.isSuccess = true
  /-- Every request of the plan has its outcome, which is that nothing was found. -/
  outcomes_eq : report.modules.map (·.outcomes)
    = plan.map (·.requests.map fun request => ⟨request.name, request.kind, .notFound⟩)
  no_module : ∀ file ∈ report.files, file.role ≠ .module
  elsewhere : ∀ location, location ≠ tree.place job.backup →
    last.get? location = tree.get? location

/-- The row of a module that receives nothing. -/
def missedRow (entry : ModulePlan) : ModuleReport × Option FileWrite :=
  (⟨entry.name, entry.missed.outcomes, 0, none⟩, none)

/-- Modules that receive nothing have no file. -/
theorem run_writeModules_missed (job : Job) (imports : ImportTable) (plan : Plan)
    (tree : FileTree) :
    (job.writeModules imports (plan.zip (plan.map (·.missed))) : StateM FileTree _).run tree
      = (plan.map missedRow, tree) := by
  induction plan with
  | nil => rfl
  | cons entry plan ih =>
    have hfirst : (job.writeModule imports entry entry.missed : StateM FileTree _).run tree
        = (missedRow entry, tree) := by
      rw [writeModule, entry.fragments_missed]
      rfl
    rw [List.map_cons, List.zip_cons_cons, writeModules, run_bind, hfirst, run_bind, ih]
    rfl

theorem filter_missedRow (plan : Plan) : (plan.map missedRow).filter (·.2.isSome) = [] := by
  simp [missedRow]

theorem filesOf_missedRow (plan : Plan) : filesOf (plan.map missedRow) = [] := by
  simp [filesOf, missedRow]

/-- A file is written with the text that it has. -/
theorem run_writeFile_same {job : Job} (hdry : job.dryRun = false) {tree : FileTree} {path : Path}
    {text : Text} (hread : tree.readBytes path = .ok text.encode)
    (hholder : tree.HolderThere path) :
    ∃ last, (job.writeFile path text : StateM FileTree WriteStatus).run tree = (.written, last) ∧
      ∀ location, last.get? location = tree.get? location := by
  obtain ⟨last, hwrite, hsame⟩ := exists_writeText_same hread
  refine ⟨last, ?_, hsame⟩
  rw [writeFile, if_neg (by simp [hdry]), run_bind, run_storeText_of_holderThere text hholder,
    hwrite]
  rfl

/-- A source that was written has the directory that holds it. -/
theorem holderThere_of_updateSource {job : Job} (hdry : job.dryRun = false) {remaining : Text}
    {rows : List (ModuleReport × Option FileWrite)} {tree changed : FileTree}
    (h : (job.updateSource remaining rows : StateM FileTree WriteStatus).run tree
      = (.written, changed)) : changed.HolderThere job.source := by
  rw [updateSource] at h
  split at h
  · dsimp only at h
    rw [writeFile, if_neg (by simp [hdry]), run_bind] at h
    generalize hstore : (Disk.storeText job.source _ : StateM FileTree (Except Fault Unit)).run tree
      = stored at h
    obtain ⟨_ | ⟨⟩, last⟩ := stored
    · cases h
    · cases h
      exact holderThere_of_storeText hstore
  · cases h

/-- If the plan finds nothing in the source, and the copy and the source can be written, a run
changes the copy at most. -/
theorem exists_idle_runOn {job : Job} (imports : ImportTable) {plan : Plan} {tree : FileTree}
    {text : Text} (hdry : job.dryRun = false)
    (hguard : plan.find? (fun entry => job.overwrites entry.name) = none)
    (hread : tree.readBytes job.source = .ok text.encode)
    (hholder : tree.HolderThere job.source)
    (hplace : ∃ location, tree.placeForFile job.backup = .ok location)
    (hapart : tree.place job.source ≠ tree.place job.backup)
    (hsplit : split text plan = ⟨plan.map (·.missed), text⟩) :
    ∃ done last, job.runOn imports plan tree = (.ok done, last) ∧
      job.Idle plan tree (done.report job) last := by
  have hfile : tree.isFile job.source = true := isFile_iff.2 ⟨_, hread⟩
  obtain ⟨status, copied, hcopy⟩ := exists_ok_backUp hfile (.inr hplace)
  obtain ⟨rfl, bytes, _, _, hchange⟩ := backUp_eq_ok hdry hapart hcopy
  have hread' := hchange.readBytes (by simpa using hapart) hread
  obtain ⟨last, hwrite, hsame⟩ := run_writeFile_same hdry hread' (hchange.holderThere hholder)
  have hupdate : (job.updateSource text (plan.map missedRow) : StateM FileTree WriteStatus).run
      copied = (.written, last) := by
    have hall : ((plan.map missedRow).filterMap (·.2)).all (·.status.isDone) = true := by
      rw [show (plan.map missedRow).filterMap (·.2) = [] from filesOf_missedRow plan, List.all_nil]
    rw [updateSource, if_pos hall, filter_missedRow]
    exact hwrite
  refine ⟨⟨⟨plan.map (·.missed), text⟩, .written, plan.map missedRow, .written⟩, last, ?_, ?_⟩
  · rw [runOn_eq, if_pos hfile]
    simp only [hguard, hcopy, readText_of_encode hread', hsplit, run_writeModules_missed, hupdate]
  · constructor
    case success => simp [Report.isSuccess, files_report, filesOf_missedRow, WriteStatus.isDone]
    case outcomes_eq =>
      simp [Completion.report, missedRow, ModulePlan.missed, ModuleShare.outcomes, Finding.outcome,
        Function.comp_def]
    case no_module => simp [files_report, filesOf_missedRow]
    case elsewhere =>
      intro location hlocation
      rw [hsame]
      rcases hchange.elsewhere location (by simpa using hlocation) with hkept | ⟨hmem, _⟩
      · exact hkept
      · cases hmem

/-! ## Second runs -/

/-- After a run that reports success on a well-formed source, a second run by the same plan finds
nothing and changes the copy at most, if the parentheses of `pub` in the source are closed where
a function is documented with one. -/
theorem exists_idle_rerun {job : Job} {imports : ImportTable} {plan : Plan} {tree next : FileTree}
    {done : Completion} {source : FunctionSource} (h : source.WellFormed)
    (hguarded : source.Guarded) (htext : tree.readText job.source = .ok source.text)
    (hmodules : ∀ entry ∈ plan, Identifier.isUsable entry.name = true)
    (hstructs : ∀ entry ∈ plan, entry.structs = [])
    (hnames : ∀ name ∈ listed plan, '(' ∉ name.toList) (hdry : job.dryRun = false)
    (hapart : job.Apart plan tree) (hrun : job.runOn imports plan tree = (.ok done, next))
    (hsuccess : (done.report job).isSuccess = true) :
    ∃ again last, job.runOn imports plan next = (.ok again, last) ∧
      job.Idle plan next (again.report job) last := by
  obtain ⟨hguard, _, _, hdone⟩ :=
    completion_of_isSuccess hdry hapart.source_ne_backup hrun hsuccess
  have hupdated : done.updated = .written := by rw [hdone]
  obtain ⟨text, copied, written, hcourse⟩ := exists_course hdry hapart.source_ne_backup hrun
  obtain rfl : text = source.text := Except.ok.inj (hcourse.text_eq.symm.trans htext)
  obtain ⟨bytes, hbytes, _⟩ := hcourse.bytes_eq
  have hread := (hcourse.source_eq hupdated).1
  have hbackup : next.readBytes job.backup = .ok bytes := by rw [hcourse.backup_eq hapart, hbytes]
  have hholder : next.HolderThere job.source := by
    have hsource := hcourse.source
    rw [hupdated] at hsource
    exact holderThere_of_updateSource hdry hsource
  have hdeclared : ∀ name ∈ (split source.text plan).takers.map (·.name),
      Identifier.isUsable name = true := by
    intro name hname
    obtain ⟨share, hshare, rfl⟩ := List.mem_map.1 hname
    obtain ⟨entry, hentry, hname⟩ := exists_entry_of_share (List.mem_filter.1 hshare).1
    rw [← hname]
    exact hmodules entry hentry
  refine exists_idle_runOn imports hdry hguard hread hholder
    ⟨_, placeForFile_of_readBytes hbackup⟩ ?_
    (split_declared h hguarded hstructs hnames hdeclared job.anchor)
  rw [hcourse.change.place_eq, hcourse.change.place_eq]
  exact hapart.source_ne_backup

/-- Two functions with a struct between them. -/
def rerunSource : FunctionSource :=
  ⟨[], [(⟨[" one".toList], [], true, "a", [], none, []⟩, "\n\nstruct S;\n\n".toList),
    (⟨[], [], false, "b", [], none, []⟩, [])]⟩

/-- A plan that takes both functions and asks for one that is missing. -/
def rerunPlan : Plan :=
  [⟨"first", ["b", "no"], [], []⟩, ⟨"second", ["a"], [], []⟩]

/-- A job that declares its modules below the struct. -/
def rerunJob : Job :=
  ⟨⟨"main.rs"⟩, "struct", ".bak", some ⟨"parts"⟩, false⟩

/-- The directory that the job is started in, with a source. -/
def rerunTree (text : Text) : FileTree :=
  ⟨["work"], [(["work"], .directory), (["work", "main.rs"], .file text.encode)]⟩

theorem exists_idle_rerun_sample :
    ∃ done next again last, rerunJob.runOn .empty rerunPlan (rerunTree rerunSource.text)
        = (.ok done, next) ∧ next.isFile (rerunJob.modulePath "first") = true ∧
      rerunJob.runOn .empty rerunPlan next = (.ok again, last) ∧
      rerunJob.Idle rerunPlan next (again.report rerunJob) last := by
  have hfirst : (match rerunJob.runOn .empty rerunPlan (rerunTree rerunSource.text) with
      | (.error _, _) => false
      | (.ok done, next) => (done.report rerunJob).isSuccess &&
          next.isFile (rerunJob.modulePath "first")) = true := by
    decide +kernel
  generalize hrun : rerunJob.runOn .empty rerunPlan (rerunTree rerunSource.text) = answer
    at hfirst
  obtain ⟨_ | done, next⟩ := answer
  · cases hfirst
  · obtain ⟨hsuccess, hmodule⟩ := Bool.and_eq_true_iff.1 hfirst
    have h : rerunSource.WellFormed := by decide +kernel
    obtain ⟨again, last, hagain, hidle⟩ := exists_idle_rerun h (by decide +kernel)
      (readText_of_encode (by rfl)) (by decide) (by decide) (by decide +kernel) rfl
      (by decide +kernel) hrun hsuccess
    exact ⟨done, next, again, last, rfl, hmodule, hagain, hidle⟩

/-- A parenthesis of `pub` that is open above a function, with a block in it, and closes in the
documentation of the function. -/
def openBlock : FunctionSource :=
  ⟨"pub (\x7b\x7d;\n\n".toList, [(⟨[" x)".toList], [], false, "foo", [], none, []⟩, [])]⟩

/-- A plan that takes that function. -/
def openPlan : Plan :=
  [⟨"m", ["foo"], [], []⟩]

/-- Without the condition on parentheses a second run may find what the first one should have taken:
that one took the block in front of the function. -/
theorem not_forall_idle_rerun :
    ¬ ∀ (job : Job) (imports : ImportTable) (plan : Plan) (tree next : FileTree)
      (done : Completion) (source : FunctionSource),
      source.WellFormed → tree.readText job.source = .ok source.text →
      (plan.map (·.name)).Nodup → (∀ entry ∈ plan, Identifier.isUsable entry.name = true ∧
        entry.structs = [] ∧ entry.functions.Nodup ∧
          ∀ name ∈ entry.functions, Identifier.isUsable name = true) →
      job.backupSuffix ≠ "" → job.dryRun = false → job.Apart plan tree →
      job.runOn imports plan tree = (.ok done, next) → (done.report job).isSuccess = true →
      ∃ again last, job.runOn imports plan next = (.ok again, last) ∧
        job.Idle plan next (again.report job) last := by
  intro hall
  have hfound : (match rerunJob.runOn .empty openPlan (rerunTree openBlock.text) with
      | (.error _, _) => false
      | (.ok done, next) => (done.report rerunJob).isSuccess &&
        match rerunJob.runOn .empty openPlan next with
        | (.error _, _) => false
        | (.ok again, _) => (again.report rerunJob).files.any (·.role == .module)) = true := by
    decide +kernel
  generalize hrun : rerunJob.runOn .empty openPlan (rerunTree openBlock.text)
    = answer at hfound
  obtain ⟨_ | done, next⟩ := answer
  · cases hfound
  · obtain ⟨hsuccess, hfound⟩ := Bool.and_eq_true_iff.1 hfound
    obtain ⟨again, last, hagain, hidle⟩ := hall rerunJob .empty _ _ next done openBlock
      (by decide +kernel) (readText_of_encode (by rfl)) (by decide) (by decide +kernel) (by decide)
      rfl (by decide +kernel) hrun hsuccess
    rw [hagain] at hfound
    obtain ⟨file, hfile, hrole⟩ := List.any_eq_true.1 hfound
    exact hidle.no_module file hfile (by simpa using hrole)

end Job

end Carver
