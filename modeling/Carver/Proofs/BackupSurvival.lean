import Carver.Proofs.Demands
import Carver.Proofs.JoinedPaths
import Carver.Proofs.Misses
import Carver.Proofs.OverlaidTables
import Carver.Proofs.RunEffect

/-!
# What becomes of the copy

A run with a checked configuration leaves the copy with the bytes that the source had, unless the
copy is spoilt (`Job.readBytes_backup_iff`), in one of two ways. The suffix can lead back to the
source, which is then emptied before it is copied: what follows is a run on an empty text, which has
nothing to move. Or the file of a module can lie where the copy lies, and is written over it.
-/

namespace Carver

/-! ## Two paths to one place -/

namespace FileTree

/-- A path that could be read leads to what another path to the same place reads. -/
theorem Change.readBytes_of_place_eq {directories files : List Location} {tree changed : FileTree}
    (h : Change directories files tree changed) {path other : Path}
    (hplace : tree.place path = tree.place other) {before bytes : ByteArray}
    (hread : tree.readBytes path = .ok before) (hother : changed.readBytes other = .ok bytes) :
    changed.readBytes path = .ok bytes := by
  obtain ⟨hlocate, hslash, _⟩ := readBytes_eq_ok_iff.1 hread
  rw [readBytes_eq_ok_iff, h.place_eq]
  refine ⟨h.locate hlocate, hslash, ?_⟩
  rw [hplace, ← h.place_eq]
  exact (readBytes_eq_ok_iff.1 hother).2.2

/-- A file that is copied to its own place is emptied. -/
theorem copyFile_self {tree changed : FileTree} {source target : Path}
    (hplace : tree.place target = tree.place source)
    (h : tree.copyFile source target = .ok changed) :
    ∃ bytes, tree.readBytes source = .ok bytes ∧ changed.readBytes source = .ok .empty ∧
      changed.readBytes target = .ok .empty ∧ Change [] [tree.place target] tree changed := by
  rw [copyFile] at h
  split at h
  · cases h
  · rename_i bytes hread
    split at h
    · cases h
    · rename_i emptied hempty
      obtain ⟨hemptied, htarget⟩ := writeBytes_eq_ok hempty
      have hsource := hemptied.readBytes_of_place_eq hplace.symm hread htarget
      rw [hsource] at h
      obtain ⟨hwritten, htarget'⟩ := writeBytes_eq_ok h
      rw [hemptied.place_eq] at hwritten
      refine ⟨bytes, hread, ?_, htarget', hemptied.trans hwritten⟩
      refine hwritten.readBytes_of_place_eq ?_ hsource htarget'
      rw [hemptied.place_eq, hemptied.place_eq, hplace]

end FileTree

/-! ## Checked configurations -/

theorem Config.names_of_check {config : Config} (h : config.check = .ok ()) :
    (∀ entry ∈ config.modules, Identifier.isUsable entry.name = true) ∧
      (config.modules.map (·.name)).Nodup := by
  have hsafe := Config.check_eq_ok_iff.1 h
  exact ⟨fun entry hentry => Identifier.isUsable_iff.2 (hsafe.modules_named entry hentry),
    hsafe.distinct⟩

namespace Job

open FileTree

/-- Modules with different usable names have files at different places. -/
theorem nodup_places (job : Job) (tree : FileTree) {plan : Plan}
    (husable : ∀ entry ∈ plan, Identifier.isUsable entry.name = true)
    (hnodup : (plan.map (·.name)).Nodup) :
    (plan.map fun entry => tree.place (job.modulePath entry.name)).Nodup := by
  rw [List.Nodup, List.pairwise_map] at hnodup ⊢
  refine hnodup.imp_of_mem fun {entry other} hentry hother hname hplace => hname ?_
  exact place_modulePath_injective job tree (husable entry hentry) (husable other hother) hplace

/-! ## The copy -/

/-- The copy does not keep the bytes: it is the source, which was emptied, or a module file with
other bytes was written in its place. -/
def Spoilt (job : Job) (imports : ImportTable) (plan : Plan) (done : Completion) (tree : FileTree)
    (bytes : ByteArray) : Prop :=
  tree.place job.backup = tree.place job.source ∧ bytes ≠ .empty ∨
    ∃ pair ∈ plan.zip done.split.modules,
      ⟨job.modulePath pair.2.name, .module, .written⟩ ∈ (done.report job).files ∧
      tree.place (job.modulePath pair.2.name) = tree.place job.backup ∧
      (contentFor imports pair.1 pair.2).encode ≠ bytes

/-- Each place that is written belongs to a module whose entry says so. -/
theorem ModuleRun.exists_pair_of_mem {job : Job} {imports : ImportTable} {tree last : FileTree}
    {pairs : List (ModulePlan × ModuleShare)} {rows : List (ModuleReport × Option FileWrite)}
    (h : ModuleRun job imports tree pairs rows last) {location : Location}
    (hlocation : location ∈ writtenPlaces tree (filesOf rows)) :
    ∃ pair ∈ pairs, ⟨job.modulePath pair.2.name, .module, .written⟩ ∈ filesOf rows ∧
      location = tree.place (job.modulePath pair.2.name) := by
  obtain ⟨file, hfile, rfl⟩ := List.mem_map.1 hlocation
  obtain ⟨hmem, hwritten⟩ := List.mem_filter.1 hfile
  have hpath : file.path ∈ (filesOf rows).map (·.path) := List.mem_map_of_mem hmem
  rw [h.path_eq] at hpath
  obtain ⟨share, hshare, hpath⟩ := List.mem_map.1 hpath
  obtain ⟨pair, hpair, rfl⟩ := List.mem_map.1 (List.mem_filter.1 hshare).1
  refine ⟨pair, hpair, ?_, by rw [hpath]⟩
  have hentry : file = ⟨job.modulePath pair.2.name, .module, .written⟩ := by
    rw [hpath, ← (h.status_cases file hmem).1, ← beq_iff_eq.1 hwritten]
  rwa [← hentry]

namespace Course

variable {job : Job} {imports : ImportTable} {plan : Plan} {text : Text} {done : Completion}
  {tree copied written last : FileTree}

/-- A module file that is written at the place of the copy replaces it. -/
theorem readBytes_backup_of_module (h : Course job imports plan text done tree copied written last)
    (hapart : tree.place job.source ≠ tree.place job.backup)
    (hnodup : (plan.map fun entry => tree.place (job.modulePath entry.name)).Nodup)
    {pair : ModulePlan × ModuleShare} (hpair : pair ∈ plan.zip (split text plan).modules)
    (hfile : ⟨job.modulePath pair.2.name, .module, .written⟩ ∈ (done.report job).files)
    (hplace : tree.place (job.modulePath pair.2.name) = tree.place job.backup) :
    last.readBytes job.backup = .ok (contentFor imports pair.1 pair.2).encode := by
  obtain ⟨bytes, _, _, hbackup⟩ := h.bytes_eq
  have hread := h.readBytes_module hnodup hpair hfile
  refine h.readBytes_of_written hapart (h.modules.change.readBytes_of_place_eq ?_ hbackup hread)
  rw [h.copy.place_eq, h.copy.place_eq, hplace]

/-- Without such a file the copy keeps its bytes. -/
theorem readBytes_backup_of_none (h : Course job imports plan text done tree copied written last)
    (hapart : tree.place job.source ≠ tree.place job.backup)
    (hnone : ∀ pair ∈ plan.zip (split text plan).modules,
      ⟨job.modulePath pair.2.name, .module, .written⟩ ∈ (done.report job).files →
        tree.place (job.modulePath pair.2.name) ≠ tree.place job.backup) :
    last.readBytes job.backup = tree.readBytes job.source := by
  obtain ⟨bytes, hbytes, _, hbackup⟩ := h.bytes_eq
  rw [hbytes]
  refine h.readBytes_of_written hapart (h.modules.change.readBytes ?_ hbackup)
  intro hmem
  obtain ⟨pair, hpair, hfile, hplace⟩ := h.modules.exists_pair_of_mem hmem
  rw [h.copy.place_eq, h.copy.place_eq] at hplace
  refine hnone pair hpair ?_ hplace.symm
  rw [← h.filter_module_files] at hfile
  exact (List.mem_filter.1 hfile).1

/-- A copy that is another file than the source keeps its bytes unless it is spoilt. -/
theorem kept_iff (h : Course job imports plan text done tree copied written last)
    (hapart : tree.place job.source ≠ tree.place job.backup)
    (hnodup : (plan.map fun entry => tree.place (job.modulePath entry.name)).Nodup)
    {bytes : ByteArray} (hbytes : tree.readBytes job.source = .ok bytes) :
    last.readBytes job.backup = .ok bytes ↔ ¬ job.Spoilt imports plan done tree bytes := by
  rw [Spoilt, h.split_eq]
  constructor
  · rintro hkept (⟨hself, _⟩ | ⟨pair, hpair, hfile, hplace, hne⟩)
    · exact hapart hself.symm
    · have hlast := h.readBytes_backup_of_module hapart hnodup hpair hfile hplace
      rw [hkept, Except.ok.injEq] at hlast
      exact hne hlast.symm
  · intro hkept
    by_cases hover : ∃ pair ∈ plan.zip (split text plan).modules,
        ⟨job.modulePath pair.2.name, .module, .written⟩ ∈ (done.report job).files ∧
        tree.place (job.modulePath pair.2.name) = tree.place job.backup
    · obtain ⟨pair, hpair, hfile, hplace⟩ := hover
      rw [h.readBytes_backup_of_module hapart hnodup hpair hfile hplace, Except.ok.injEq]
      exact Classical.byContradiction fun hne => hkept (.inr ⟨pair, hpair, hfile, hplace, hne⟩)
    · rw [← hbytes]
      exact h.readBytes_backup_of_none hapart fun pair hpair hfile hplace =>
        hover ⟨pair, hpair, hfile, hplace⟩

end Course

/-- A run whose copy is the source ends with an empty source, and has written no module. -/
theorem readBytes_backup_of_self {job : Job} {imports : ImportTable} {plan : Plan}
    {tree last : FileTree} {done : Completion} (hdry : job.dryRun = false)
    (hplace : tree.place job.backup = tree.place job.source)
    (hrun : job.runOn imports plan tree = (.ok done, last)) :
    (∃ bytes, tree.readBytes job.source = .ok bytes) ∧ last.readBytes job.backup = .ok .empty ∧
      filesOf done.modules = [] := by
  obtain ⟨_, text, copied, written, hcopy, hread, _, hmodules, hsource⟩ := runOn_eq_ok hrun
  obtain ⟨bytes, hbytes, hself, hbackup, hchange⟩ :=
    copyFile_self hplace (copyFile_of_backUp hdry hcopy).2
  -- the source is read after it was emptied
  have htext : text = [] := by
    rw [readText, hself] at hread
    exact (Except.ok.inj hread).symm
  subst htext
  have hmodules := moduleRun_writeModules hdry imports hmodules
  have htakers : ((plan.zip (split [] plan).modules).map (·.2)).filter (!·.fragments.isEmpty)
      = [] := by
    rw [map_snd_zip_split, split_nil]
    simp
  have hfiles : filesOf done.modules = [] := by
    rw [← List.map_eq_nil_iff, hmodules.path_eq, htakers, List.map_nil]
  have hstep := hmodules.change
  rw [hfiles] at hstep
  have hbackup' := hstep.readBytes List.not_mem_nil hbackup
  have hself' := hstep.readBytes List.not_mem_nil hself
  have hlast : last.readBytes job.source = .ok .empty := by
    rcases updateSource_cases hdry hsource with
      ⟨_, ⟨_, hwritten, _⟩ | ⟨_, hkept⟩⟩ | ⟨⟨file, hfile, _⟩, _⟩
    · rw [hwritten, hmodules.declared_eq, htakers, split_nil]
      rfl
    · exact hkept.readBytes List.not_mem_nil hself'
    · rw [hfiles] at hfile
      cases hfile
  refine ⟨⟨bytes, hbytes⟩, ?_, hfiles⟩
  refine (change_updateSource hdry hsource).readBytes_of_place_eq ?_ hbackup' hlast
  rw [hstep.place_eq, hstep.place_eq, hchange.place_eq, hchange.place_eq, hplace]

/-- A copy that is the source keeps its bytes if there are none. -/
theorem kept_iff_of_self {job : Job} {imports : ImportTable} {plan : Plan}
    {tree last : FileTree} {done : Completion} (hdry : job.dryRun = false)
    (hplace : tree.place job.backup = tree.place job.source)
    (hrun : job.runOn imports plan tree = (.ok done, last)) :
    ∃ bytes, tree.readBytes job.source = .ok bytes ∧
      (last.readBytes job.backup = .ok bytes ↔ ¬ job.Spoilt imports plan done tree bytes) := by
  obtain ⟨⟨bytes, hbytes⟩, hlast, hfiles⟩ := readBytes_backup_of_self hdry hplace hrun
  refine ⟨bytes, hbytes, ?_⟩
  rw [hlast, Except.ok.injEq]
  constructor
  · rintro rfl (⟨_, hne⟩ | ⟨pair, _, hfile, _⟩)
    · exact hne rfl
    · have hmem := mem_filesOf_of_role hfile rfl
      rw [hfiles] at hmem
      cases hmem
  · intro hkept
    exact Classical.byContradiction fun hne => hkept (.inl ⟨hplace, Ne.symm hne⟩)

/-- After a run with a checked configuration the copy has the bytes that the source had, unless it
is spoilt. -/
theorem readBytes_backup_iff (config : Config) (tree last : FileTree) (done : Completion)
    (hcheck : config.check = .ok ())
    (hrun : (Job.ofConfig config).runOn config.imports config.modules tree = (.ok done, last)) :
    ∃ bytes, tree.readBytes config.source.path = .ok bytes ∧
      (last.readBytes (Job.ofConfig config).backup = .ok bytes
        ↔ ¬ (Job.ofConfig config).Spoilt config.imports config.modules done tree bytes) := by
  by_cases hplace : tree.place (Job.ofConfig config).backup
      = tree.place (Job.ofConfig config).source
  · obtain ⟨bytes, hbytes, hkept⟩ := kept_iff_of_self rfl hplace hrun
    exact ⟨bytes, hbytes, hkept⟩
  · have hapart : tree.place (Job.ofConfig config).source
        ≠ tree.place (Job.ofConfig config).backup := Ne.symm hplace
    obtain ⟨text, copied, written, hcourse⟩ := exists_course rfl hapart hrun
    obtain ⟨bytes, hbytes, _⟩ := hcourse.bytes_eq
    obtain ⟨husable, hnodup⟩ := Config.names_of_check hcheck
    have hplaces := nodup_places (Job.ofConfig config) tree husable hnodup
    exact ⟨bytes, hbytes, hcourse.kept_iff hapart hplaces hbytes⟩

/-- A configuration whose copy has the path of a module file. -/
def namesakeConfig : Config :=
  ⟨⟨⟨"app"⟩, "", ".rs", none⟩, .empty, [⟨"app", ["a"], [], []⟩], ⟨"info", .pretty⟩⟩

/-- The directory that the job is started in, with its source. -/
def namesakeTree : FileTree :=
  ⟨["work"], [(["work"], .directory), (["work", "app"], .file (Text.encode "fn a() {}\n".toList))]⟩

/-- The copy is lost although the configuration is accepted and the run ends with a report. -/
theorem readBytes_backup_iff_sample : namesakeConfig.check = .ok () ∧
    ∃ done last bytes, (Job.ofConfig namesakeConfig).runOn namesakeConfig.imports
        namesakeConfig.modules namesakeTree = (.ok done, last) ∧
      (done.report (Job.ofConfig namesakeConfig)).isSuccess = true ∧
      namesakeTree.readBytes namesakeConfig.source.path = .ok bytes ∧
      last.readBytes (Job.ofConfig namesakeConfig).backup ≠ .ok bytes ∧
      (Job.ofConfig namesakeConfig).Spoilt namesakeConfig.imports namesakeConfig.modules done
        namesakeTree bytes := by
  have hcheck : namesakeConfig.check = .ok () := by rfl
  have hlost : (match (Job.ofConfig namesakeConfig).runOn namesakeConfig.imports
        namesakeConfig.modules namesakeTree with
      | (.error _, _) => false
      | (.ok done, last) =>
        (done.report (Job.ofConfig namesakeConfig)).isSuccess &&
          match namesakeTree.readBytes namesakeConfig.source.path,
            last.readBytes (Job.ofConfig namesakeConfig).backup with
          | .ok bytes, .ok others => decide (bytes ≠ others)
          | _, _ => false) = true := by
    decide +kernel
  generalize hrun : (Job.ofConfig namesakeConfig).runOn namesakeConfig.imports
    namesakeConfig.modules namesakeTree = answer at hlost
  obtain ⟨_ | done, last⟩ := answer
  · cases hlost
  · obtain ⟨bytes, hbytes, hiff⟩ :=
      readBytes_backup_iff namesakeConfig namesakeTree last done hcheck hrun
    simp only [hbytes, Bool.and_eq_true] at hlost
    have hne : last.readBytes (Job.ofConfig namesakeConfig).backup ≠ .ok bytes := by
      intro hkept
      simp [hkept] at hlost
    exact ⟨hcheck, done, last, bytes, rfl, hlost.1, hbytes, hne,
      Classical.not_not.1 (mt hiff.2 hne)⟩

end Job

end Carver
