import Carver.Proofs.Outcome

/-!
# Dry runs

A dry run is computed from the tree alone and leaves it as it is (`runOn_dry`). What it reports is
what the same job reports when it writes and nothing goes wrong, with every file planned instead of
written; and where it fails, writing fails as well (`dry_foretells_real`). The two runs read the
source at different moments, so the copy must not be the source itself.
-/

namespace Carver

/-- The status in a dry run of a file that came out like this. -/
def WriteStatus.foreseen : WriteStatus → WriteStatus
  | .written => .planned
  | status => status

/-- The status of a file that a run tried to write. -/
def WriteStatus.Tried (status : WriteStatus) : Prop :=
  status = .written ∨ ∃ error, status = .failed error

theorem WriteStatus.Tried.eq_written {status : WriteStatus} (h : status.Tried)
    (hdone : status.isDone = true) : status = .written := by
  rcases h with hwritten | ⟨error, rfl⟩
  · exact hwritten
  · cases hdone

/-- The file as a dry run reports it. -/
def FileWrite.foreseen (file : FileWrite) : FileWrite :=
  { file with status := file.status.foreseen }

/-- The report as a dry run gives it: nothing is written, but planned. -/
def Report.foreseen (report : Report) : Report :=
  { report with dryRun := true, files := report.files.map (·.foreseen) }

namespace Job

open FileTree

/-- The job as a dry run. -/
def dry (job : Job) : Job :=
  { job with dryRun := true }

/-- The job as a run that writes. -/
def real (job : Job) : Job :=
  { job with dryRun := false }

variable (job : Job) (imports : ImportTable) (plan : Plan) (tree : FileTree)

/-! ## Steps of a dry run -/

theorem run_writeModules_dry (pairs : List (ModulePlan × ModuleShare)) :
    (job.dry.writeModules imports pairs : StateM FileTree _).run tree
      = (pairs.map fun pair => job.row pair.2 .planned, tree) := by
  induction pairs with
  | nil => rfl
  | cons pair pairs ih =>
    obtain ⟨entry, share⟩ := pair
    have hfirst : (job.dry.writeModule imports entry share : StateM FileTree _).run tree
        = (job.row share .planned, tree) := by
      rw [writeModule, row]
      split <;> rfl
    rw [writeModules, run_bind, hfirst, run_bind, ih]
    rfl

/-- Planned files are as good as written, so the source is planned as well. -/
theorem run_updateSource_dry (remaining : Text) (pairs : List (ModulePlan × ModuleShare)) :
    (job.dry.updateSource remaining (pairs.map fun pair => job.row pair.2 .planned)
      : StateM FileTree WriteStatus).run tree = (.planned, tree) := by
  have hall : ((pairs.map fun pair => job.row pair.2 .planned).filterMap (·.2)).all
      (·.status.isDone) = true := by
    rw [List.all_eq_true]
    intro file hfile
    simp only [List.mem_filterMap, List.mem_map] at hfile
    obtain ⟨_, ⟨pair, _, rfl⟩, hsome⟩ := hfile
    rw [row] at hsome
    split at hsome
    · cases hsome
    · cases hsome
      rfl
  rw [updateSource, if_pos hall]
  rfl

/-- What a dry run comes to. -/
def forecast : Except Failure Completion :=
  if tree.isFile job.source then
    match plan.find? fun entry => job.overwrites entry.name with
    | some entry => .error (.overSource entry.name)
    | none =>
      match tree.readText job.source with
      | .error fault => .error (.unreadable fault)
      | .ok text =>
        let parts := split text plan
        .ok ⟨parts, .planned, (plan.zip parts.modules).map fun pair => job.row pair.2 .planned,
          .planned⟩
  else .error .sourceMissing

/-- A dry run leaves the tree as it is, whatever comes of it. -/
theorem runOn_dry : job.dry.runOn imports plan tree = (job.forecast plan tree, tree) := by
  rw [runOn_eq, forecast]
  change (if tree.isFile job.source then
    match plan.find? fun entry => job.overwrites entry.name with
    | some entry => _
    | none => match tree.readText job.source with
      | .error fault => _
      | .ok text => _
    else _) = _
  split
  · cases plan.find? fun entry => job.overwrites entry.name with
    | some entry => rfl
    | none =>
      cases tree.readText job.source with
      | error fault => rfl
      | ok text => simp only [run_writeModules_dry, run_updateSource_dry]
  · rfl

/-! ## Steps of a run that writes -/

/-- Making the copy does not change the text of the source. -/
theorem readText_of_backUp {job : Job} (hdry : job.dryRun = false) {tree changed : FileTree}
    (hapart : tree.place job.source ≠ tree.place job.backup) {copied : WriteStatus}
    (h : (job.backUp : StateM FileTree (Except Fault WriteStatus)).run tree
      = (.ok copied, changed)) :
    changed.readText job.source = tree.readText job.source := by
  obtain ⟨_, bytes, hread, _, hchange⟩ := backUp_eq_ok hdry hapart h
  exact readText_congr ((hchange.readBytes (by simpa using hapart) hread).trans hread.symm)

theorem tried_writeFile {job : Job} (hdry : job.dryRun = false) (path : Path) (text : Text)
    (tree : FileTree) :
    ((job.writeFile path text : StateM FileTree WriteStatus).run tree).1.Tried := by
  rcases writeFile_cases hdry (Prod.eta _).symm with ⟨hwritten, _⟩ | ⟨hfailed, _⟩
  · exact .inl hwritten
  · exact .inr hfailed

/-- A run whose report is a success wrote all its files. -/
theorem completion_of_isSuccess {job : Job} (hdry : job.dryRun = false) {imports : ImportTable}
    {plan : Plan} {tree last : FileTree} (hapart : tree.place job.source ≠ tree.place job.backup)
    {done : Completion} (hrun : job.runOn imports plan tree = (.ok done, last))
    (hsuccess : (done.report job).isSuccess = true) :
    plan.find? (fun entry => job.overwrites entry.name) = none ∧
      ∃ text, tree.readText job.source = .ok text ∧
        done = ⟨split text plan, .written,
          (plan.zip (split text plan).modules).map fun pair => job.row pair.2 .written,
          .written⟩ := by
  obtain ⟨hguard, text, copied, written, hcopy, hread, hsplit, hmodules, hsource⟩ :=
    runOn_eq_ok hrun
  have hcopied := (backUp_eq_ok hdry hapart hcopy).1
  rw [readText_of_backUp hdry hapart hcopy] at hread
  rw [Report.isSuccess, files_report, List.all_cons, List.all_append, Bool.and_eq_true,
    Bool.and_eq_true, List.all_eq_true] at hsuccess
  have hrows := rows_writeModules job imports (tried_writeFile hdry)
    (plan.zip (split text plan).modules) copied
  rw [hmodules] at hrows
  have hmodules' := hrows.eq_map (fun _ => WriteStatus.Tried.eq_written) hsuccess.2.1
  have hupdated : done.updated = .written := by
    have hlast : done.updated.isDone = true := by simpa using hsuccess.2.2
    rcases updateSource_cases hdry hsource with ⟨_, ⟨hwritten, _⟩ | ⟨hfailed, _⟩⟩ | ⟨_, hskip, _⟩
    · exact hwritten
    · exact WriteStatus.Tried.eq_written (.inr hfailed) hlast
    · rw [hskip] at hlast
      cases hlast
  refine ⟨hguard, text, hread, ?_⟩
  obtain ⟨parts, status, modules, updated⟩ := done
  simp only at hsplit hcopied hupdated hmodules'
  rw [hsplit, hcopied, hupdated, hmodules']

/-! ## Both runs -/

/-- What a dry run reports on a module is what is reported when its file is written. -/
theorem row_planned (share : ModuleShare) : job.row share .planned
    = ((job.row share .written).1, (job.row share .written).2.map (·.foreseen)) := by
  rw [row, row]
  split <;> rfl

/-- The reports of the two runs agree. -/
theorem report_foreseen (parts : Split) (pairs : List (ModulePlan × ModuleShare)) :
    (⟨parts, .planned, pairs.map fun pair => job.row pair.2 .planned, .planned⟩
        : Completion).report job.dry
      = ((⟨parts, .written, pairs.map fun pair => job.row pair.2 .written, .written⟩
        : Completion).report job.real).foreseen := by
  have hreports : (pairs.map fun pair => job.row pair.2 .planned).map (·.1)
      = (pairs.map fun pair => job.row pair.2 .written).map (·.1) := by
    simp only [List.map_map, Function.comp_def, row_planned]
  have hfiles : filesOf (pairs.map fun pair => job.row pair.2 .planned)
      = (filesOf (pairs.map fun pair => job.row pair.2 .written)).map (·.foreseen) := by
    simp only [filesOf, List.filterMap_map, List.map_filterMap, Function.comp_def, row_planned]
  rw [Report.foreseen, files_report, List.map_cons, List.map_append, ← hfiles]
  simp only [Completion.report, hreports]
  rfl

/-- If the job succeeds when it writes, the dry run gives the same report, with planned files. -/
theorem exists_forecast_of_isSuccess {job : Job} {imports : ImportTable} {plan : Plan}
    {tree : FileTree} (hapart : tree.place job.source ≠ tree.place job.backup) {done : Completion}
    (hdone : (job.real.runOn imports plan tree).1 = .ok done)
    (hsuccess : (done.report job.real).isSuccess = true) :
    ∃ foreseen, job.forecast plan tree = .ok foreseen ∧
      foreseen.report job.dry = (done.report job.real).foreseen := by
  have hrun : job.real.runOn imports plan tree
      = (.ok done, (job.real.runOn imports plan tree).2) := by rw [← hdone]
  obtain ⟨hguard, text, htext, rfl⟩ := job.real.completion_of_isSuccess rfl hapart hrun hsuccess
  change plan.find? (fun entry => job.overwrites entry.name) = none at hguard
  change tree.readText job.source = .ok text at htext
  refine ⟨_, ?_, job.report_foreseen (split text plan) (plan.zip (split text plan).modules)⟩
  rw [forecast, if_pos (isFile_of_readText htext), hguard, htext]

/-- If the dry run fails, so does the job when it writes: for the same reason, or before it comes to
that, because there can be no copy. -/
theorem exists_failure_of_forecast {job : Job} (imports : ImportTable) {plan : Plan}
    {tree : FileTree} (hapart : tree.place job.source ≠ tree.place job.backup) {failure : Failure}
    (hfailure : job.forecast plan tree = .error failure) :
    ∃ other, (job.real.runOn imports plan tree).1 = .error other ∧
      (other = failure ∨ ∃ fault, other = .backupFailed fault) := by
  rw [runOn_eq]
  change ∃ other, (if tree.isFile job.source then
    match plan.find? fun entry => job.overwrites entry.name with
    | some entry => _
    | none => _
    else _ : Except Failure Completion × FileTree).1 = _ ∧ _
  rw [forecast] at hfailure
  split at hfailure
  · rename_i hfile
    rw [if_pos hfile]
    split at hfailure
    · cases hfailure
      exact ⟨_, rfl, .inl rfl⟩
    · split at hfailure
      · rename_i fault hread
        cases hfailure
        generalize hcopy : (job.real.backUp : StateM FileTree _).run tree = answer
        obtain ⟨fault' | status, copied⟩ := answer
        · exact ⟨_, rfl, .inr ⟨fault', rfl⟩⟩
        -- with the copy made, the source reads as before
        · have hread' : copied.readText job.real.source = .error fault := by
            rw [job.real.readText_of_backUp rfl hapart hcopy]
            exact hread
          simp only [hread']
          exact ⟨_, rfl, .inl rfl⟩
      · cases hfailure
  · rename_i hfile
    cases hfailure
    rw [if_neg hfile]
    exact ⟨_, rfl, .inl rfl⟩

/-- A dry run touches nothing. If the job succeeds when it writes, the dry run gives the same report
with every file planned; if the dry run fails, so does the job when it writes, and with the same
error unless the copy could not be made. The copy has to be another file than the source. -/
theorem dry_foretells_real :
    (job.dry.runOn imports plan tree).2 = tree ∧
      (tree.place job.source ≠ tree.place job.backup →
        (∀ done, (job.real.runOn imports plan tree).1 = .ok done →
          (done.report job.real).isSuccess = true →
            ∃ foreseen, (job.dry.runOn imports plan tree).1 = .ok foreseen ∧
              foreseen.report job.dry = (done.report job.real).foreseen) ∧
        ∀ failure, (job.dry.runOn imports plan tree).1 = .error failure →
          ∃ other, (job.real.runOn imports plan tree).1 = .error other ∧
            (other.error job.real = failure.error job.dry ∨
              ∃ fault, other = .backupFailed fault)) := by
  rw [runOn_dry]
  refine ⟨rfl, fun hapart => ⟨?_, ?_⟩⟩
  · intro done hdone hsuccess
    exact exists_forecast_of_isSuccess hapart hdone hsuccess
  · intro failure hfailure
    obtain ⟨other, hother, hsame | hcopy⟩ := exists_failure_of_forecast imports hapart hfailure
    · refine ⟨other, hother, .inl ?_⟩
      rw [hsame]
      cases failure <;> rfl
    · exact ⟨other, hother, .inr hcopy⟩

/-- The directory that the sample job is started in, with a source that is no text. -/
def unreadableTree : FileTree :=
  ⟨["work"], [(["work"], .directory), (["work", "main.rs"], .file ⟨#[0xff]⟩)]⟩

theorem dry_foretells_real_sample :
    sampleTree.place sampleJob.source ≠ sampleTree.place sampleJob.backup ∧
      (∃ done foreseen, (sampleJob.real.runOn .empty samplePlan sampleTree).1 = .ok done ∧
        (done.report sampleJob.real).isSuccess = true ∧
        (sampleJob.dry.runOn .empty samplePlan sampleTree).1 = .ok foreseen ∧
        foreseen.report sampleJob.dry = (done.report sampleJob.real).foreseen) ∧
      ∃ failure other, (sampleJob.dry.runOn .empty samplePlan unreadableTree).1 = .error failure ∧
        (sampleJob.real.runOn .empty samplePlan unreadableTree).1 = .error other ∧
        (other.error sampleJob.real = failure.error sampleJob.dry ∨
          ∃ fault, other = .backupFailed fault) := by
  have hapart : sampleTree.place sampleJob.source ≠ sampleTree.place sampleJob.backup := by
    decide +kernel
  refine ⟨hapart, ?_, ?_⟩
  · have hsuccess : (match (sampleJob.real.runOn .empty samplePlan sampleTree).1 with
        | .error _ => false
        | .ok done => (done.report sampleJob.real).isSuccess) = true := by
      decide +kernel
    split at hsuccess
    · cases hsuccess
    · rename_i done hdone
      obtain ⟨foreseen, hforeseen, hreport⟩ :=
        ((dry_foretells_real sampleJob .empty samplePlan sampleTree).2 hapart).1 done hdone hsuccess
      exact ⟨done, foreseen, hdone, hsuccess, hforeseen, hreport⟩
  · have hfailure : (sampleJob.dry.runOn .empty samplePlan unreadableTree).1
        = .error (.unreadable .notUtf8) := by
      rfl
    obtain ⟨other, hother, hsame⟩ :=
      ((dry_foretells_real sampleJob .empty samplePlan unreadableTree).2 hapart).2 _ hfailure
    exact ⟨_, other, hfailure, hother, hsame⟩

end Job

end Carver
