import Carver.Proofs.Accounts
import Carver.Proofs.Outcome

/-!
# Reports tell the truth

A report is put together on several branches: no fragment, a dry run, a file that was or was not
written, a source that is left alone. Each step gives an entry of a known shape whatever the disk
answers: `Job.Gives` bounds the status of a file, `Job.RowTells` is what one module contributes, and
a row is a truthful one by `Job.rowTells_row`. Since the rows stand one by one for the shares of the
split, the lists that are read off the report are read off the shares (`exists_truthful_run`).
-/

namespace Carver

theorem WriteStatus.isDone_iff {status : WriteStatus} :
    status.isDone = true ↔ status = .written ∨ status = .planned := by
  cases status <;> simp [isDone]

namespace Report

theorem totalFound_eq_sum (report : Report) :
    report.totalFound = (report.modules.map (·.found)).sum := by
  rw [totalFound, List.sum_eq_foldr, List.foldr_map]

theorem totalRequested_eq_sum (report : Report) :
    report.totalRequested = (report.modules.map (·.requested)).sum := by
  rw [totalRequested, List.sum_eq_foldr, List.foldr_map]

end Report

namespace Job

open FileTree

/-! ## Statuses -/

/-- What may come of a file that the job goes about to write, whatever the disk answers. -/
inductive Gives (job : Job) : WriteStatus → Prop
  | planned : job.dryRun = true → Gives job .planned
  | written : job.dryRun = false → Gives job .written
  | failed (error : String) : job.dryRun = false → Gives job (.failed error)

namespace Gives

variable {job : Job} {status : WriteStatus}

theorem eq_planned_iff (h : job.Gives status) : status = .planned ↔ job.dryRun = true := by
  cases h with
  | planned hdry => exact iff_of_true rfl hdry
  | written hdry => simp [hdry]
  | failed error hdry => simp [hdry]

theorem ne_skipped (h : job.Gives status) (reason : String) : status ≠ .skipped reason := by
  rintro rfl
  cases h

/-- A file that is not done has failed, and the run is not dry. -/
theorem isDone_eq_false_iff (h : job.Gives status) :
    status.isDone = false ↔ (∃ error, status = .failed error) ∧ job.dryRun = false := by
  cases h with
  | planned hdry => simp [WriteStatus.isDone]
  | written hdry => simp [WriteStatus.isDone]
  | failed error hdry => simp [WriteStatus.isDone, hdry]

end Gives

section

variable {σ : Type} [Disk (StateM σ)] (job : Job)

theorem gives_writeFile (path : Path) (text : Text) (state : σ) :
    job.Gives ((job.writeFile path text : StateM σ WriteStatus).run state).1 := by
  rw [writeFile]
  split
  · rename_i hdry
    exact .planned hdry
  · rename_i hdry
    rw [run_bind]
    split
    · exact .failed _ (Bool.not_eq_true _ ▸ hdry)
    · exact .written (Bool.not_eq_true _ ▸ hdry)

variable {job}

/-- A copy that is made, or would be, is done. -/
theorem gives_of_backUp {state copied : σ} {status : WriteStatus}
    (h : (job.backUp : StateM σ (Except Fault WriteStatus)).run state = (.ok status, copied)) :
    job.Gives status ∧ status.isDone = true := by
  rw [backUp] at h
  split at h
  · rename_i hdry
    cases h
    exact ⟨.planned hdry, rfl⟩
  · rename_i hdry
    rw [run_bind] at h
    split at h
    · cases h
    · cases h
      exact ⟨.written (Bool.not_eq_true _ ▸ hdry), rfl⟩

/-- The source is skipped if a file of a module is not done, and is gone about else. -/
theorem gives_of_updateSource {remaining : Text} {rows : List (ModuleReport × Option FileWrite)}
    {state last : σ} {status : WriteStatus}
    (h : (job.updateSource remaining rows : StateM σ WriteStatus).run state = (status, last)) :
    (∀ file ∈ filesOf rows, file.status.isDone = true) ∧ job.Gives status ∨
      (∃ file ∈ filesOf rows, file.status.isDone = false) ∧ status = .skipped skipReason := by
  rw [updateSource] at h
  split at h
  · rename_i hall
    refine .inl ⟨List.all_eq_true.1 hall, ?_⟩
    have hgives := job.gives_writeFile job.source (Module.insertDeclarations remaining job.anchor
      ((rows.filter (·.2.isSome)).map (·.1.name))) state
    rwa [h] at hgives
  · rename_i hall
    cases h
    rw [Bool.not_eq_true, List.all_eq_false] at hall
    obtain ⟨file, hfile, hstatus⟩ := hall
    exact .inr ⟨⟨file, hfile, Bool.not_eq_true _ ▸ hstatus⟩, rfl⟩

end

/-! ## Rows -/

/-- What is reported on a module agrees with its share, and with its file if it has one. -/
structure RowTells (job : Job) (share : ModuleShare) (row : ModuleReport × Option FileWrite) :
    Prop where
  name_eq : row.1.name = share.name
  outcomes_eq : row.1.outcomes = share.outcomes
  fragments_eq : row.1.fragments = share.fragments.length
  isSome_iff : row.2.isSome = true ↔ share.fragments ≠ []
  entry_eq : ∀ file ∈ row.2, file.role = .module ∧ file.path = job.modulePath share.name
  file_eq_some_iff : ∀ path, row.1.file = some path ↔
    ∃ file ∈ row.2, file.path = path ∧ (file.status = .written ∨ file.status = .planned)

theorem rowTells_row (job : Job) (share : ModuleShare) (status : WriteStatus) :
    job.RowTells share (job.row share status) := by
  rw [row]
  by_cases hempty : share.fragments = []
  · rw [if_pos (List.isEmpty_iff.2 hempty)]
    exact ⟨rfl, rfl, rfl, by simp [hempty], by simp, by simp⟩
  · rw [if_neg (mt List.isEmpty_iff.1 hempty)]
    refine ⟨rfl, rfl, rfl, by simp [hempty], by simp, ?_⟩
    intro path
    simp only [← WriteStatus.isDone_iff, Option.mem_some_iff, exists_eq_left']
    cases status.isDone <;> simp

namespace Rows

variable {job : Job} {possible : WriteStatus → Prop} {pairs : List (ModulePlan × ModuleShare)}
  {rows : List (ModuleReport × Option FileWrite)}

theorem tells (h : job.Rows possible pairs rows) :
    List.Forall₂ job.RowTells (pairs.map (·.2)) rows := by
  induction h with
  | nil => exact .nil
  | @cons pair status pairs rows _ _ ih => exact .cons (job.rowTells_row pair.2 status) ih

theorem status (h : job.Rows possible pairs rows) :
    ∀ file ∈ filesOf rows, possible file.status := by
  induction h with
  | nil => exact List.forall_mem_nil _
  | @cons pair status pairs rows hstatus _ ih =>
    rw [row]
    split
    · exact ih
    · rw [filesOf_cons_some]
      exact List.forall_mem_cons.2 ⟨hstatus, ih⟩

end Rows

section

variable {job : Job} {shares : List ModuleShare} {rows : List (ModuleReport × Option FileWrite)}

/-- The entries of files are those of the modules with a fragment, in order. -/
theorem files_of_rowTells (h : List.Forall₂ job.RowTells shares rows) :
    (filesOf rows).map (fun file => (file.role, file.path))
      = (shares.filter (!·.fragments.isEmpty)).map (fun share =>
        (Role.module, job.modulePath share.name)) := by
  induction h with
  | nil => rfl
  | @cons share row shares rows hrow _ ih =>
    obtain ⟨report, _ | file⟩ := row
    · have hempty : share.fragments = [] := by simpa using hrow.isSome_iff
      rw [filesOf_cons_none, ih, List.filter_cons_of_neg (by simp [hempty])]
    · have hfragments : share.fragments ≠ [] := hrow.isSome_iff.1 rfl
      obtain ⟨hrole, hpath⟩ := hrow.entry_eq file rfl
      rw [filesOf_cons_some, List.map_cons, ih, List.filter_cons_of_pos (by simpa using hfragments),
        List.map_cons, hrole, hpath]

/-- The modules that name a file are those whose file is done. -/
theorem filterMap_file_of_rowTells (h : List.Forall₂ job.RowTells shares rows) :
    ((filesOf rows).filter (·.status.isDone)).map (·.path)
      = (rows.map (·.1)).filterMap (·.file) := by
  induction h with
  | nil => rfl
  | @cons share row shares rows hrow _ ih =>
    obtain ⟨report, _ | file⟩ := row
    · have hnone : report.file = none := by
        simpa [Option.eq_none_iff_forall_ne_some] using hrow.file_eq_some_iff
      rw [filesOf_cons_none, ih, List.map_cons, List.filterMap_cons_none hnone]
    · have hfile := hrow.file_eq_some_iff
      simp only [← WriteStatus.isDone_iff, Option.mem_some_iff, exists_eq_left'] at hfile
      rw [filesOf_cons_some, List.map_cons]
      cases hdone : file.status.isDone with
      | true =>
        rw [List.filter_cons, if_pos hdone, List.map_cons, ih,
          List.filterMap_cons_some ((hfile file.path).2 ⟨rfl, hdone⟩)]
      | false =>
        have hnone : report.file = none := by
          simpa [Option.eq_none_iff_forall_ne_some, hdone] using hfile
        rw [List.filter_cons, if_neg (by simp [hdone]), ih, List.filterMap_cons_none hnone]

/-- What is told of the modules is what is so of their shares. -/
theorem map_report_of_rowTells {γ : Type} {key : ModuleReport → γ} {key' : ModuleShare → γ}
    (hkey : ∀ share row, job.RowTells share row → key row.1 = key' share)
    (h : List.Forall₂ job.RowTells shares rows) : (rows.map (·.1)).map key = shares.map key' := by
  rw [List.map_map]
  exact (map_eq_map_of_forall₂ (h.imp fun share row hrow => (hkey share row hrow).symm)).symm

end

/-! ## What is read off a report -/

/-- What came of the files of a job, as its steps leave it. -/
structure Answered (job : Job) (done : Completion) : Prop where
  copied : job.Gives done.copied ∧ done.copied.isDone = true
  modules : ∀ file ∈ filesOf done.modules, file.role = .module ∧ job.Gives file.status
  updated : (∀ file ∈ filesOf done.modules, file.status.isDone = true) ∧ job.Gives done.updated ∨
    (∃ file ∈ filesOf done.modules, file.status.isDone = false) ∧ done.updated = .skipped skipReason

namespace Answered

variable {job : Job} {done : Completion}

theorem skipped_eq (h : job.Answered done) {file : FileWrite}
    (hfile : file ∈ (done.report job).files) {reason : String}
    (hskipped : file.status = .skipped reason) : file = ⟨job.source, .source, done.updated⟩ := by
  rw [files_report, List.mem_cons, List.mem_append, List.mem_singleton] at hfile
  rcases hfile with rfl | hmodule | rfl
  · exact absurd hskipped (h.copied.1.ne_skipped reason)
  · exact absurd hskipped ((h.modules file hmodule).2.ne_skipped reason)
  · rfl

theorem skipped_iff (h : job.Answered done) : (∃ reason, done.updated = .skipped reason) ↔
    ∃ file ∈ filesOf done.modules, ∃ error, file.status = .failed error := by
  rcases h.updated with ⟨hall, hgives⟩ | ⟨⟨file, hfile, hstatus⟩, hskipped⟩
  · refine iff_of_false ?_ ?_
    · rintro ⟨reason, hskipped⟩
      exact hgives.ne_skipped reason hskipped
    · rintro ⟨file, hfile, error, hfailed⟩
      have hdone := hall file hfile
      rw [hfailed] at hdone
      cases hdone
  · have hfailed := ((h.modules file hfile).2.isDone_eq_false_iff.1 hstatus).1
    exact iff_of_true ⟨_, hskipped⟩ ⟨file, hfile, hfailed⟩

/-- The source is done only if all other files are. -/
theorem isSuccess_iff (h : job.Answered done) :
    (done.report job).isSuccess = true ↔ done.updated = .written ∨ done.updated = .planned := by
  rw [Report.isSuccess, files_report, List.all_cons, List.all_append, List.all_cons, List.all_nil,
    h.copied.2, Bool.true_and, Bool.and_true, Bool.and_eq_true, List.all_eq_true,
    ← WriteStatus.isDone_iff]
  rcases h.updated with ⟨hall, -⟩ | ⟨-, hskipped⟩
  · exact and_iff_right hall
  · rw [hskipped]
    refine and_iff_right_of_imp fun hdone => ?_
    cases hdone

theorem planned_iff (h : job.Answered done) {file : FileWrite}
    (hfile : file ∈ (done.report job).files) : file.status = .planned ↔ job.dryRun = true := by
  rw [files_report, List.mem_cons, List.mem_append, List.mem_singleton] at hfile
  rcases hfile with rfl | hmodule | rfl
  · exact h.copied.1.eq_planned_iff
  · exact (h.modules file hmodule).2.eq_planned_iff
  · rcases h.updated with ⟨-, hgives⟩ | ⟨⟨other, hother, hstatus⟩, hskipped⟩
    · exact hgives.eq_planned_iff
    -- a file failed, so the run is not dry
    · have hdry := ((h.modules other hother).2.isDone_eq_false_iff.1 hstatus).2
      simp [hskipped, hdry]

theorem moduleFiles_eq (h : job.Answered done) :
    (done.report job).moduleFiles = (filesOf done.modules).filter (·.status.isDone) := by
  have hroles : (filesOf done.modules).filter
        (fun file => file.role == .module && file.status.isDone)
      = (filesOf done.modules).filter (·.status.isDone) := by
    refine List.filter_congr fun file hfile => ?_
    rw [(h.modules file hfile).1]
    rfl
  rw [Report.moduleFiles, files_report, List.filter_cons_of_neg (by simp), List.filter_append,
    hroles, List.filter_cons_of_neg (by simp), List.filter_nil, List.append_nil]

end Answered

theorem map_requested_modules_split (text : Text) (plan : Plan) :
    (split text plan).modules.map (·.requested) = plan.map (·.requested) := by
  have hall : List.Forall₂ (fun entry share => share.AccountsFor entry) plan
      (split text plan).modules :=
    forall₂_thread ModulePlan.accountsFor_take text plan
  exact (map_eq_map_of_forall₂ (hall.imp fun _ _ h => h.requested_eq.symm)).symm

/-! ## Whole reports -/

/-- What the report of a job says agrees with the split of the text `original` by the plan, and with
what came of the files. -/
structure Truthful (job : Job) (plan : Plan) (original : Text) (done : Completion) : Prop where
  split_eq : done.split = split original plan
  /-- The copy is told first and the source last, with the files of modules between them. -/
  files_eq : (done.report job).files = ⟨job.backup, .backup, done.copied⟩ ::
    (filesOf done.modules ++ [⟨job.source, .source, done.updated⟩])
  /-- The modules with a fragment have a file, in the order of the plan. -/
  modules_files : (filesOf done.modules).map (fun file => (file.role, file.path))
    = (split original plan).takers.map (fun share => (Role.module, job.modulePath share.name))
  skipped_eq : ∀ file ∈ (done.report job).files, ∀ reason, file.status = .skipped reason →
    file = ⟨job.source, .source, done.updated⟩
  skipped_iff : (∃ reason, done.updated = .skipped reason) ↔
    ∃ file ∈ filesOf done.modules, ∃ error, file.status = .failed error
  /-- Every entry of the plan is told of, in order, as its share and its file have it. -/
  modules_eq : (done.report job).modules = done.modules.map (·.1)
  names_eq : (done.report job).modules.map (·.name) = plan.map (·.name)
  rows_tell : List.Forall₂ job.RowTells (split original plan).modules done.modules
  moduleFiles_eq : (done.report job).moduleFiles.map (·.path)
    = (done.report job).modules.filterMap (·.file)
  isSuccess_iff : (done.report job).isSuccess = true ↔
    done.updated = .written ∨ done.updated = .planned
  totalFound_eq : (done.report job).totalFound
    = ((split original plan).modules.map (·.found)).sum
  totalRequested_eq : (done.report job).totalRequested = (plan.map (·.requested)).sum
  planned_iff : ∀ file ∈ (done.report job).files,
    file.status = .planned ↔ (done.report job).dryRun = true

/-- Reads the source as a run reads it: once the copy is made. -/
def readSource {m : Type → Type} [Monad m] [Disk m] (job : Job) : m (Except Fault Text) := do
  let _ ← (Disk.isFile job.source : m Bool)
  let _ ← (job.backUp : m (Except Fault WriteStatus))
  Disk.readText job.source

/-- A run that ends with a report tells the truth in it, on every file tree (`runOn`) and on any
other disk that has a state. -/
theorem exists_truthful_run {σ : Type} [Disk (StateM σ)] {job : Job} {imports : ImportTable}
    {plan : Plan} {state last : σ} {done : Completion}
    (hrun : (job.run imports plan : StateM σ _).run state = (.ok done, last)) :
    ∃ text, ((job.readSource : StateM σ _).run state).1 = .ok text ∧
      job.Truthful plan text done := by
  obtain ⟨-, text, checked, copied, read, written, rfl, hcopy, hread, hsplit, hmodules, hsource⟩ :=
    run_eq_ok hrun
  have hrows := rows_writeModules job imports job.gives_writeFile
    (plan.zip (split text plan).modules) read
  rw [hmodules] at hrows
  have htells := hrows.tells
  rw [map_snd_zip_split] at htells
  have hfiles := files_of_rowTells htells
  have hanswered : job.Answered done := by
    refine ⟨gives_of_backUp hcopy, ?_, gives_of_updateSource hsource⟩
    exact fun file hfile => ⟨(hrows.path_eq hfile).1, hrows.status file hfile⟩
  refine ⟨text, ?_, ?_⟩
  · rw [readSource, run_bind, run_bind, hcopy, hread]
  constructor
  case split_eq => exact hsplit
  case files_eq => exact files_report job done
  case modules_files => exact hfiles
  case skipped_eq => exact fun file hfile reason hskipped => hanswered.skipped_eq hfile hskipped
  case skipped_iff => exact hanswered.skipped_iff
  case modules_eq => rfl
  case names_eq =>
    rw [← map_name_modules_split text plan]
    exact map_report_of_rowTells (fun _ _ hrow => hrow.name_eq) htells
  case rows_tell => exact htells
  case moduleFiles_eq =>
    rw [hanswered.moduleFiles_eq]
    exact filterMap_file_of_rowTells htells
  case isSuccess_iff => exact hanswered.isSuccess_iff
  case totalFound_eq =>
    rw [Report.totalFound_eq_sum]
    refine congrArg List.sum (map_report_of_rowTells (fun share row hrow => ?_) htells)
    rw [ModuleReport.found, hrow.outcomes_eq, ModuleShare.found]
  case totalRequested_eq =>
    rw [Report.totalRequested_eq_sum, ← map_requested_modules_split text plan]
    refine congrArg List.sum (map_report_of_rowTells (fun share row hrow => ?_) htells)
    rw [ModuleReport.requested, hrow.outcomes_eq, ModuleShare.requested]
  case planned_iff => exact fun file hfile => hanswered.planned_iff hfile

/-- The sample tree with a directory where the file of the first module belongs. -/
def blockedTree : FileTree :=
  { sampleTree with entries := sampleTree.entries ++
    [(["work", "parts"], .directory), (["work", "parts", "first.rs"], .directory)] }

theorem exists_truthful_run_blocked :
    ∃ done last text, sampleJob.runOn .empty samplePlan blockedTree = (.ok done, last) ∧
      done.updated = .skipped skipReason ∧
      ((sampleJob.readSource : StateM FileTree _).run blockedTree).1 = .ok text ∧
      sampleJob.Truthful samplePlan text done := by
  have hskipped : (sampleJob.runOn .empty samplePlan blockedTree).1.toOption.map (·.updated)
      = some (.skipped skipReason) := by
    decide +kernel
  generalize hrun : sampleJob.runOn .empty samplePlan blockedTree = answer at hskipped
  obtain ⟨_ | done, last⟩ := answer
  · cases hskipped
  · obtain ⟨text, htext, htruthful⟩ := exists_truthful_run hrun
    exact ⟨done, last, text, rfl, Option.some.inj hskipped, htext, htruthful⟩

end Job

end Carver
