import Carver.Proofs.BackupSurvival
import Carver.Proofs.DryRun

/-!
# Runs that fail

A run ends without a report before the first module is written, if at all. Until then it has made
the copy at most, so that nothing has changed but what is at the place of the copy
(`spared_of_runOnUnder`). A module whose file would be there is no exception: the copy takes its
place (`not_forall_module_spared`). A copy that leads back to the source empties it; an empty source
can be read, so such a run fails only on a pattern that is refused. A name that is missed ends no
run: with a text to read, a place for the copy, no module over the source and no pattern refused, a
run always comes to a report (`exists_ok_runOnUnder`). `failure_spares_sources` says both.
-/

namespace Carver

namespace FileTree

variable {tree changed : FileTree}

/-- A place that is no directory can still be written after a change. -/
theorem Change.placeForFile {directories files : List Location}
    (h : Change directories files tree changed) {path : Path} {location : Location}
    (hplace : tree.placeForFile path = .ok location)
    (hfile : changed.get? location ≠ some .directory) :
    changed.placeForFile path = .ok location := by
  rw [FileTree.placeForFile] at hplace ⊢
  split at hplace
  · cases hplace
  · rename_i holder hholder
    obtain ⟨hcheck, hwalk⟩ := holderOf_eq_ok hholder
    have hholder' : changed.holderOf path = .ok holder := by
      rw [holderOf, hcheck, h.home_eq]
      exact h.walk hwalk
    simp only [hholder']
    split at hplace
    · cases hplace
    · split at hplace
      · cases hplace
      · rename_i hslash
        simp only [if_neg hslash]
        split at hplace
        · cases hplace
        · rename_i found hchild
          split at hplace
          · cases hplace
          · cases hplace
            split
            · rename_i hdirectory
              exact absurd hdirectory hfile
            · rfl

/-- What is at a path stays the same if no directory is made and its place is not written. -/
theorem Change.entryAt {files : List Location} (h : Change [] files tree changed) {path : Path}
    (hplace : tree.place path ∉ files) {entry : Entry} (hentry : tree.entryAt path = .ok entry) :
    changed.entryAt path = .ok entry := by
  rw [FileTree.entryAt] at hentry ⊢
  split at hentry
  · cases hentry
  · rename_i location hlocate
    rw [← locate_eq_place hlocate] at hplace
    rcases h.elsewhere location hplace with hsame | ⟨hmem, _⟩
    · rw [h.locate hlocate]
      simpa only [hsame] using hentry
    · cases hmem

theorem exists_writeBytes {path : Path} {location : Location}
    (h : tree.placeForFile path = .ok location) (bytes : ByteArray) :
    ∃ changed, tree.writeBytes path bytes = .ok changed := by
  rw [writeBytes, h]
  exact ⟨_, rfl⟩

/-- A file that was written can be written once more. -/
theorem exists_writeBytes_of_readBytes {path : Path} {location : Location}
    (hplace : tree.placeForFile path = .ok location) {before : ByteArray}
    (hwritten : tree.writeBytes path before = .ok changed) (bytes : ByteArray) :
    ∃ last, changed.writeBytes path bytes = .ok last := by
  obtain ⟨hchange, hread⟩ := writeBytes_eq_ok hwritten
  have hlocation : location = tree.place path := locate_eq_place (placeForFile_eq_ok hplace).1
  have hfile : changed.get? location = some (.file before) := by
    rw [hlocation, ← hchange.place_eq path]
    exact (readBytes_eq_ok_iff.1 hread).2.2
  exact exists_writeBytes (hchange.placeForFile hplace (by rw [hfile]; simp)) bytes

/-- A file can be copied to any place where a file can be written, its own place included. -/
theorem exists_copyFile {source target : Path} {bytes : ByteArray} {location : Location}
    (hread : tree.readBytes source = .ok bytes)
    (hplace : tree.placeForFile target = .ok location) :
    ∃ changed, tree.copyFile source target = .ok changed := by
  obtain ⟨emptied, hempty⟩ := exists_writeBytes hplace .empty
  obtain ⟨hemptied, htarget⟩ := writeBytes_eq_ok hempty
  obtain ⟨found, hfound⟩ : ∃ found, emptied.readBytes source = .ok found := by
    by_cases hself : tree.place source = tree.place target
    · exact ⟨_, hemptied.readBytes_of_place_eq hself hread htarget⟩
    · exact ⟨_, hemptied.readBytes (by simpa using hself) hread⟩
  obtain ⟨last, hlast⟩ := exists_writeBytes_of_readBytes hplace hempty found
  exact ⟨last, by simp only [copyFile, hread, hempty, hfound, hlast]⟩

/-- A copy changes the place that is copied to, where a file is afterwards. -/
theorem change_copyFile {source target : Path} (h : tree.copyFile source target = .ok changed) :
    Change [] [tree.place target] tree changed ∧
      ∃ bytes, changed.get? (tree.place target) = some (.file bytes) := by
  obtain ⟨bytes, hread, hchange⟩ : ∃ bytes, changed.readBytes target = .ok bytes ∧
      Change [] [tree.place target] tree changed := by
    by_cases hself : tree.place target = tree.place source
    · obtain ⟨_, _, _, hread, hchange⟩ := copyFile_self hself h
      exact ⟨_, hread, hchange⟩
    · obtain ⟨bytes, _, hread, hchange⟩ := copyFile_eq_ok (Ne.symm hself) h
      exact ⟨bytes, hread, hchange⟩
  refine ⟨hchange, bytes, ?_⟩
  rw [← hchange.place_eq target]
  exact (readBytes_eq_ok_iff.1 hread).2.2

/-- If the source cannot be read as a text after it was copied, it has kept its bytes: had the copy
led back to it, it would be empty. -/
theorem readBytes_of_copyFile {source target : Path}
    (h : tree.copyFile source target = .ok changed) {fault : Fault}
    (hfault : changed.readText source = .error fault) :
    changed.readBytes source = tree.readBytes source := by
  by_cases hself : tree.place target = tree.place source
  · obtain ⟨_, _, hempty, _⟩ := copyFile_self hself h
    rw [readText, hempty] at hfault
    cases hfault
  · have hapart : tree.place source ≠ tree.place target := Ne.symm hself
    obtain ⟨bytes, hread, _, hchange⟩ := copyFile_eq_ok hapart h
    rw [hchange.readBytes (by simpa using hapart) hread, hread]

end FileTree

namespace Job

open FileTree

/-- The tree is as it was, or the copy was made and nothing else: what is elsewhere stays, also a
module file and the source, and no directory comes about or goes, the output directory included. -/
structure Spared (job : Job) (tree last : FileTree) : Prop where
  copy_only : last = tree ∨ tree.copyFile job.source job.backup = .ok last
  elsewhere : ∀ location, location ≠ tree.place job.backup →
    last.get? location = tree.get? location
  directories : ∀ location,
    last.get? location = some .directory ↔ tree.get? location = some .directory
  paths : ∀ path, tree.place path ≠ tree.place job.backup →
    ∀ entry, last.entryAt path = .ok entry ↔ tree.entryAt path = .ok entry
  modules : ∀ name, tree.place (job.modulePath name) ≠ tree.place job.backup →
    ∀ entry, last.entryAt (job.modulePath name) = .ok entry
      ↔ tree.entryAt (job.modulePath name) = .ok entry
  output_directory : last.get? (tree.place job.directory) = some .directory
    ↔ tree.get? (tree.place job.directory) = some .directory
  source_eq : tree.place job.source ≠ tree.place job.backup →
    last.readBytes job.source = tree.readBytes job.source

theorem Spared.refl (job : Job) (tree : FileTree) : job.Spared tree tree where
  copy_only := .inl rfl
  elsewhere _ _ := rfl
  directories _ := Iff.rfl
  paths _ _ _ := Iff.rfl
  modules _ _ _ := Iff.rfl
  output_directory := Iff.rfl
  source_eq _ := rfl

/-- A copy spares everything but its own place. -/
theorem spared_of_copyFile {job : Job} {tree last : FileTree}
    (h : tree.copyFile job.source job.backup = .ok last) : job.Spared tree last := by
  obtain ⟨hchange, bytes, hbackup⟩ := change_copyFile h
  have helsewhere : ∀ location, location ≠ tree.place job.backup →
      last.get? location = tree.get? location := by
    intro location hne
    rcases hchange.elsewhere location (by simpa using hne) with hsame | ⟨hmem, _⟩
    · exact hsame
    · cases hmem
  have hdirectories : ∀ location,
      last.get? location = some .directory ↔ tree.get? location = some .directory := by
    refine fun location => ⟨fun hdirectory => ?_, hchange.stays location⟩
    by_cases hlocation : location = tree.place job.backup
    · rw [hlocation, hbackup] at hdirectory
      cases hdirectory
    · rw [← helsewhere location hlocation, hdirectory]
  -- nothing was made or removed, so the way back is such a change as well
  have hback : Change [] [tree.place job.backup] last tree := by
    refine ⟨hchange.home_eq.symm, fun location => (hdirectories location).1, ?_⟩
    intro location hlocation
    exact .inl (helsewhere location (by simpa using hlocation)).symm
  have hpaths : ∀ path, tree.place path ≠ tree.place job.backup →
      ∀ entry, last.entryAt path = .ok entry ↔ tree.entryAt path = .ok entry := by
    refine fun path hpath entry => ⟨fun hentry => ?_, fun hentry => ?_⟩
    · exact hback.entryAt (by simpa [hchange.place_eq path] using hpath) hentry
    · exact hchange.entryAt (by simpa using hpath) hentry
  constructor
  case copy_only => exact .inr h
  case elsewhere => exact helsewhere
  case directories => exact hdirectories
  case paths => exact hpaths
  case modules => exact fun name => hpaths (job.modulePath name)
  case output_directory => exact hdirectories _
  case source_eq =>
    intro hapart
    obtain ⟨bytes, hread, _, hcopied⟩ := copyFile_eq_ok hapart h
    rw [hcopied.readBytes (by simpa using hapart) hread, hread]

/-- The copy is made, or the tree is left as it is, which it is if there is a fault. -/
theorem backUp_cases {job : Job} {tree copied : FileTree} {answer : Except Fault WriteStatus}
    (h : (job.backUp : StateM FileTree _).run tree = (answer, copied)) :
    copied = tree ∨
      answer = .ok .written ∧ tree.copyFile job.source job.backup = .ok copied := by
  rw [run_backUp] at h
  split at h
  · cases h
    exact .inl rfl
  · split at h
    · cases h
      exact .inl rfl
    · rename_i hcopy
      cases h
      exact .inr ⟨rfl, hcopy⟩

/-- There is no fault if a file is copied to where one can be written. -/
theorem exists_ok_backUp {job : Job} {tree : FileTree} (hfile : tree.isFile job.source = true)
    (hplace : job.dryRun = true ∨ ∃ location, tree.placeForFile job.backup = .ok location) :
    ∃ status copied, (job.backUp : StateM FileTree _).run tree = (.ok status, copied) := by
  rw [run_backUp]
  rcases hplace with hdry | ⟨location, hlocation⟩
  · rw [if_pos hdry]
    exact ⟨_, _, rfl⟩
  · split
    · exact ⟨_, _, rfl⟩
    · obtain ⟨bytes, hbytes⟩ := isFile_iff.1 hfile
      obtain ⟨copied, hcopied⟩ := exists_copyFile hbytes hlocation
      rw [hcopied]
      exact ⟨_, _, rfl⟩

theorem spared_of_backUp {job : Job} {tree copied : FileTree} {answer : Except Fault WriteStatus}
    (h : (job.backUp : StateM FileTree _).run tree = (answer, copied)) :
    job.Spared tree copied := by
  rcases backUp_cases h with rfl | ⟨_, hcopy⟩
  · exact .refl job _
  · exact spared_of_copyFile hcopy

/-- A run that fails leaves the tree as it is, or made the copy, and failed on what it read then. -/
theorem failure_cases {refusals : Refusals} {job : Job} {imports : ImportTable} {plan : Plan}
    {tree last : FileTree} {failure : Failure}
    (h : job.runOnUnder refusals imports plan tree = (.error failure, last)) :
    last = tree ∨ ∃ status,
      (job.backUp : StateM FileTree _).run tree = (.ok status, last) ∧
      ((∃ fault, failure = .unreadable fault ∧ last.readText job.source = .error fault) ∨
        ∃ stop, failure = .patternRefused stop) := by
  rw [runOnUnder_eq] at h
  split at h
  · split at h
    · cases h
      exact .inl rfl
    · split at h
      · rename_i hcopy
        cases h
        rcases backUp_cases hcopy with hsame | ⟨hanswer, _⟩
        · exact .inl hsame
        · cases hanswer
      · rename_i status copied hcopy
        split at h
        · rename_i fault hfault
          cases h
          exact .inr ⟨status, hcopy, .inl ⟨fault, rfl, hfault⟩⟩
        · split at h
          · rename_i stop _
            cases h
            exact .inr ⟨status, hcopy, .inr ⟨stop, rfl⟩⟩
          · cases h
  · cases h
    exact .inl rfl

/-- A run that fails has come to the copy at most; if the configuration is at fault, not even
there. -/
theorem spared_of_runOnUnder {refusals : Refusals} {job : Job} {imports : ImportTable} {plan : Plan}
    {tree last : FileTree} {failure : Failure}
    (h : job.runOnUnder refusals imports plan tree = (.error failure, last)) :
    job.Spared tree last ∧ ∀ cause, failure.error job = .config cause → last = tree := by
  rcases failure_cases h with rfl | ⟨status, hcopy, hread⟩
  · exact ⟨.refl job _, fun _ _ => rfl⟩
  · refine ⟨spared_of_backUp hcopy, fun cause hcause => ?_⟩
    rcases hread with ⟨fault, rfl, _⟩ | ⟨stop, rfl⟩ <;> cases hcause

/-- Even if the copy leads back to the source, the source keeps its bytes in a run that fails, but
for one that fails on a pattern. -/
theorem readBytes_of_runOnUnder {refusals : Refusals} {job : Job} {imports : ImportTable}
    {plan : Plan} {tree last : FileTree} {failure : Failure}
    (h : job.runOnUnder refusals imports plan tree = (.error failure, last))
    (hpattern : ∀ detail, failure.error job ≠ .pattern detail) :
    last.readBytes job.source = tree.readBytes job.source := by
  rcases failure_cases h with rfl | ⟨status, hcopy, ⟨fault, _, hfault⟩ | ⟨stop, rfl⟩⟩
  · rfl
  · rcases backUp_cases hcopy with rfl | ⟨_, hcopied⟩
    · rfl
    · exact readBytes_of_copyFile hcopied hfault
  · exact absurd rfl (hpattern stop.detail)

/-- With the copy made, or not asked for, a source that was a text is one. -/
theorem exists_readText_of_backUp {job : Job} {tree copied : FileTree} {text : Text}
    (htext : tree.readText job.source = .ok text) {answer : Except Fault WriteStatus}
    (h : (job.backUp : StateM FileTree _).run tree = (answer, copied)) :
    ∃ found, copied.readText job.source = .ok found := by
  rcases backUp_cases h with rfl | ⟨_, hcopy⟩
  · exact ⟨text, htext⟩
  · cases hfound : copied.readText job.source with
    | ok found => exact ⟨found, rfl⟩
    | error fault =>
      have hsame := readText_congr (readBytes_of_copyFile hcopy hfound)
      rw [hfound, htext] at hsame
      cases hsame

/-- With a text to read, a place for the copy and no module over the source, a run comes to the
split of a text. -/
theorem exists_split_runOnUnder {job : Job} (refusals : Refusals) (imports : ImportTable)
    {plan : Plan} {tree : FileTree} {text : Text} (htext : tree.readText job.source = .ok text)
    (hplace : job.dryRun = true ∨ ∃ location, tree.placeForFile job.backup = .ok location)
    (hguard : ∀ entry ∈ plan, ¬ (job.modulePath entry.name).Same job.source) :
    ∃ found, (∀ stop, splitUnder refusals found plan = .error stop →
        (job.runOnUnder refusals imports plan tree).1 = .error (.patternRefused stop)) ∧
      ∀ parts, splitUnder refusals found plan = .ok parts →
        ∃ done, (job.runOnUnder refusals imports plan tree).1 = .ok done := by
  have hfile := isFile_of_readText htext
  have hnone : plan.find? (fun entry => job.overwrites entry.name) = none := by
    rw [List.find?_eq_none]
    intro entry hentry
    simpa [overwrites] using hguard entry hentry
  obtain ⟨status, copied, hcopy⟩ := exists_ok_backUp hfile hplace
  obtain ⟨found, hfound⟩ := exists_readText_of_backUp htext hcopy
  refine ⟨found, fun stop hstop => ?_, fun parts hparts => ?_⟩
  · simp only [runOnUnder_eq, if_pos hfile, hnone, hcopy, hfound, hstop]
  · simp only [runOnUnder_eq, if_pos hfile, hnone, hcopy, hfound, hparts]
    exact ⟨_, rfl⟩

/-- Such a run comes to a report if none of its patterns is refused, whatever its plan asks for. -/
theorem exists_ok_runOnUnder {job : Job} {refusals : Refusals} (imports : ImportTable) {plan : Plan}
    {tree : FileTree} {text : Text} (htaken : plan.against refusals = none)
    (htext : tree.readText job.source = .ok text)
    (hplace : job.dryRun = true ∨ ∃ location, tree.placeForFile job.backup = .ok location)
    (hguard : ∀ entry ∈ plan, ¬ (job.modulePath entry.name).Same job.source) :
    ∃ done, (job.runOnUnder refusals imports plan tree).1 = .ok done := by
  obtain ⟨found, -, hdone⟩ := exists_split_runOnUnder refusals imports htext hplace hguard
  exact hdone _ (splitUnder_eq_ok htaken found)

/-- Otherwise it fails, with what is said against the first pattern that is refused. -/
theorem exists_patternRefused {job : Job} {refusals : Refusals} (imports : ImportTable)
    {plan : Plan} {tree : FileTree} {text : Text} {said : String}
    (hsaid : plan.against refusals = some said) (htext : tree.readText job.source = .ok text)
    (hplace : job.dryRun = true ∨ ∃ location, tree.placeForFile job.backup = .ok location)
    (hguard : ∀ entry ∈ plan, ¬ (job.modulePath entry.name).Same job.source) :
    ∃ failure, (job.runOnUnder refusals imports plan tree).1 = .error failure ∧
      failure.error job = .pattern said := by
  obtain ⟨found, hfailed, -⟩ := exists_split_runOnUnder refusals imports htext hplace hguard
  obtain ⟨stop, hstop, hdetail⟩ := exists_interruption hsaid found
  exact ⟨_, hfailed stop hstop, congrArg Error.pattern hdetail⟩

/-- No failure is one of those that a run goes on from. -/
theorem isRecoverable_failure (job : Job) (failure : Failure) :
    (failure.error job).isRecoverable = false := by
  cases failure <;> rfl

/-- A run that fails leaves the tree as it was if the configuration is at fault, and otherwise
changes what is at the place of the copy at most, so that no module file with another place and no
output directory comes about or changes; the source keeps its bytes, if the copy has another place
or the failure is not about a pattern. And no name that is missed makes a run fail: with a source
that is a text, a place for the copy, no module over the source and no pattern refused, a run comes
to a report for every plan. -/
theorem failure_spares_sources (refusals : Refusals) (job : Job) (imports : ImportTable)
    (plan : Plan) (tree : FileTree) :
    (∀ failure last, job.runOnUnder refusals imports plan tree = (.error failure, last) →
      job.Spared tree last ∧ (failure.error job).isRecoverable = false ∧
        (∀ cause, failure.error job = .config cause → last = tree) ∧
        ((∀ detail, failure.error job ≠ .pattern detail) →
          last.readBytes job.source = tree.readBytes job.source)) ∧
      (plan.against refusals = none → (∃ text, tree.readText job.source = .ok text) →
        (job.dryRun = true ∨ ∃ location, tree.placeForFile job.backup = .ok location) →
        (∀ entry ∈ plan, ¬ (job.modulePath entry.name).Same job.source) →
        ∃ done, (job.runOnUnder refusals imports plan tree).1 = .ok done) := by
  refine ⟨fun failure last h => ?_, ?_⟩
  · obtain ⟨hspared, hconfig⟩ := spared_of_runOnUnder h
    exact ⟨hspared, isRecoverable_failure job failure, hconfig, readBytes_of_runOnUnder h⟩
  · rintro htaken ⟨text, htext⟩ hplace hguard
    exact exists_ok_runOnUnder imports htaken htext hplace hguard

/-- A plan that misses every name: one is not there, and one has no end. -/
def missingPlan : Plan :=
  [⟨"first", ["missing"], ["Missing"], []⟩, ⟨"second", ["open"], [], []⟩]

/-- The directory that the sample job is started in, with a function that does not end. -/
def openTree : FileTree :=
  ⟨["work"], [(["work"], .directory),
    (["work", "main.rs"], .file (Text.encode "fn open() \x7b\n".toList))]⟩

/-- A source that is no text stays, next to its copy, and so does one whose plan has a pattern that
is refused; misses alone do not stop a run. -/
theorem failure_spares_sources_sample :
    (∃ failure last, sampleJob.runOnUnder (fun _ => none) .empty missingPlan unreadableTree
        = (.error failure, last) ∧
      sampleJob.Spared unreadableTree last ∧ last.isFile sampleJob.backup = true) ∧
    (∃ detail last,
      sampleJob.runOnUnder (fun _ => some "too large") .empty missingPlan openTree
        = (.error (.patternRefused ⟨[], [], detail⟩), last) ∧
      sampleJob.Spared openTree last ∧ last.isFile sampleJob.backup = true) ∧
      ∃ done, (sampleJob.runOnUnder (fun _ => none) .empty missingPlan openTree).1 = .ok done := by
  refine ⟨?_, ?_, ?_⟩
  · have hrun : sampleJob.runOnUnder (fun _ => none) .empty missingPlan unreadableTree
        = (.error (.unreadable .notUtf8), _) :=
      Prod.ext (by decide +kernel) rfl
    have hspared := (failure_spares_sources (fun _ => none) sampleJob .empty missingPlan
      unreadableTree).1 _ _ hrun
    exact ⟨_, _, hrun, hspared.1, by decide +kernel⟩
  · have hrun : sampleJob.runOnUnder (fun _ => some "too large") .empty missingPlan openTree
        = (.error (.patternRefused ⟨[], [], "too large"⟩), _) :=
      Prod.ext (by decide +kernel) rfl
    have hspared := (failure_spares_sources (fun _ => some "too large") sampleJob .empty
      missingPlan openTree).1 _ _ hrun
    exact ⟨_, _, hrun, hspared.1, by decide +kernel⟩
  · have hplace : (openTree.placeForFile sampleJob.backup).isOk = true := by decide +kernel
    generalize hanswer : openTree.placeForFile sampleJob.backup = answer at hplace
    obtain _ | location := answer
    · cases hplace
    · refine (failure_spares_sources (fun _ => none) sampleJob .empty missingPlan openTree).2
        (against_none missingPlan) ?_ (.inr ?_) ?_
      · exact ⟨_, rfl⟩
      · exact ⟨location, hanswer⟩
      · decide +kernel

/-- A source whose name with the suffix is the name of a module's file. -/
def suffixJob : Job where
  source := ⟨"app"⟩
  anchor := ""
  backupSuffix := ".rs"
  outputDirectory := none
  dryRun := false

/-- The directory that this job is started in, with a source that is no text. -/
def suffixTree : FileTree :=
  ⟨["work"], [(["work"], .directory), (["work", "app"], .file ⟨#[0xff]⟩)]⟩

/-- A run that fails can leave a module file behind: the copy, if that is its place. -/
theorem not_forall_module_spared :
    ¬ ∀ (job : Job) (imports : ImportTable) (plan : Plan) (tree last : FileTree)
      (failure : Failure), job.runOn imports plan tree = (.error failure, last) →
      ∀ entry ∈ plan, last.isFile (job.modulePath entry.name)
        = tree.isFile (job.modulePath entry.name) := by
  intro hall
  have hrun : suffixJob.runOn .empty [⟨"app", ["a"], [], []⟩] suffixTree
      = (.error (.unreadable .notUtf8), _) :=
    Prod.ext (by decide +kernel) rfl
  have hsame := hall _ _ _ _ _ _ hrun _ (List.mem_singleton.2 rfl)
  have hmade : (suffixJob.runOn .empty [⟨"app", ["a"], [], []⟩] suffixTree).2.isFile
      (suffixJob.modulePath "app") = true := by
    decide +kernel
  have hbefore : suffixTree.isFile (suffixJob.modulePath "app") = false := by decide +kernel
  exact absurd (hmade.symm.trans (hsame.trans hbefore)) (by decide)

end Job

end Carver
