import Carver.Proofs.Components
import Carver.Proofs.Outcome

/-!
# The guard of the source

A run is refused if the path of a module file and the path of the source have the same components.
Without an output directory that depends on the name of the source alone, in every spelling of its
path (`Job.same_modulePath_iff`). With one, the guard compares two directories as they are written
(`Job.overwrites_iff`), while the files are the same if the directories are the same places
(`Job.place_modulePath_eq_iff`). A run that is not refused keeps its modules off the source unless
the output directory is the directory of the source under another spelling
(`Job.apart_iff_not_disguised`).
-/

namespace Carver

namespace Job

open FileTree Carver.Path

/-- The output directory is the directory of the source, written in another way, and a module is
named like the source. -/
def Disguised (job : Job) (plan : Plan) (tree : FileTree) : Prop :=
  ∃ directory parent, job.outputDirectory = some directory ∧ job.source.parent = some parent ∧
    ¬ directory.Same parent ∧ tree.place directory = tree.place parent ∧
    ∃ entry ∈ plan, job.source.fileName = some (entry.name ++ ".rs")

variable {job : Job} {tree : FileTree} {parent : Path} {file name : String}

theorem overwrites_iff (hname : Identifier.isUsable name = true)
    (hsource : job.source.components = parent.components ++ [.name file]) :
    job.overwrites name = true ↔ job.directory.Same parent ∧ name ++ ".rs" = file := by
  rw [overwrites, decide_eq_true_eq, Same, hsource, modulePath,
    components_join _ (isFileName_of_isUsable hname), List.append_singleton_inj,
    Component.name.injEq]
  rfl

/-- Without an output directory the guard reads the file name alone, however the source is written:
the directory of the source is its parent, and the two paths differ at most in the last
component. -/
theorem same_modulePath_iff (job : Job) {name : String} (hdirectory : job.outputDirectory = none)
    (hname : Identifier.isUsable name = true) :
    (job.modulePath name).Same job.source ↔ job.source.fileName = some (name ++ ".rs") := by
  have hmodule : (job.modulePath name).components
      = (job.source.parent.getD ⟨""⟩).components ++ [.name (name ++ ".rs")] := by
    rw [modulePath, directory, hdirectory,
      components_join _ (isFileName_of_isUsable hname)]
  rw [Same, hmodule]
  constructor
  · intro hsame
    rw [fileName_eq_some_iff, ← hsame, List.getLast?_concat]
  · intro hfile
    obtain ⟨parent, hparent, hcomponents⟩ := exists_parent_of_fileName hfile
    rw [hparent, Option.getD_some, hcomponents]

/-- A source that is written with dots, a step back and slashes to spare. -/
def ornateJob : Job where
  source := ⟨"./src//../lib/./main.rs/."⟩
  anchor := ""
  backupSuffix := ".bak"
  outputDirectory := none
  dryRun := false

/-- The module that is named like the source would be written over it. -/
theorem same_modulePath_iff_sample :
    ornateJob.outputDirectory = none ∧ Identifier.isUsable "main" = true ∧
      (ornateJob.modulePath "main").text = "./src//../lib/main.rs" ∧
      (ornateJob.modulePath "main").Same ornateJob.source := by
  have hname : Identifier.isUsable "main" = true := by decide +kernel
  have hfile : ornateJob.source.fileName = some ("main" ++ ".rs") := by decide +kernel
  refine ⟨rfl, hname, by decide +kernel, ?_⟩
  exact (same_modulePath_iff ornateJob rfl hname).2 hfile

theorem place_modulePath_eq_iff (hname : Identifier.isUsable name = true)
    (hsource : job.source.components = parent.components ++ [.name file]) :
    tree.place (job.modulePath name) = tree.place job.source
      ↔ tree.place job.directory = tree.place parent ∧ name ++ ".rs" = file := by
  simp only [place, placeFrom_eq_foldl, hsource, modulePath,
    components_join _ (isFileName_of_isUsable hname), List.foldl_append, List.foldl_cons,
    List.foldl_nil, lead, List.append_singleton_inj]

/-- A run that is not refused has no module whose path is the source's. -/
theorem overwrites_eq_false {imports : ImportTable} {plan : Plan}
    (hsource : tree.isFile job.source = true)
    (hguard : ∀ name, (job.runOn imports plan tree).1 ≠ .error (.overSource name))
    {entry : ModulePlan} (hentry : entry ∈ plan) : job.overwrites entry.name = false := by
  cases hfind : plan.find? fun entry => job.overwrites entry.name with
  | some found =>
    refine absurd ?_ (hguard found.name)
    rw [runOn_eq, if_pos hsource, hfind]
  | none => simpa using List.find?_eq_none.1 hfind entry hentry

/-- A run is refused on account of a module of its plan that has the path of the source. -/
theorem exists_entry_of_overSource {imports : ImportTable} {plan : Plan} {last : FileTree}
    (h : job.runOn imports plan tree = (.error (.overSource name), last)) :
    ∃ entry ∈ plan, entry.name = name ∧ job.overwrites entry.name = true := by
  rw [runOn_eq] at h
  split at h
  · split at h
    · rename_i entry hfind
      cases h
      have hover := List.find?_some hfind
      exact ⟨entry, List.mem_of_find?_eq_some hfind, rfl, hover⟩
    · split at h
      · cases h
      · split at h
        · cases h
        · cases h
  · cases h

/-- The module files of a report are those of the plan. -/
theorem exists_entry_of_file {imports : ImportTable} {plan : Plan} {done : Completion}
    (h : (job.runOn imports plan tree).1 = .ok done) {write : FileWrite}
    (hwrite : write ∈ (done.report job).files) (hrole : write.role = .module) :
    ∃ entry ∈ plan, write.path = job.modulePath entry.name := by
  obtain ⟨_, text, copied, written, _, _, _, hmodules, _⟩ := runOn_eq_ok (Prod.ext h rfl)
  have hrows : job.Rows (fun _ => True) _ _ := rows_writeModules job imports (fun _ _ _ => trivial)
    (plan.zip (split text plan).modules) copied
  rw [hmodules] at hrows
  obtain ⟨_, pair, hpair, hpath⟩ := hrows.path_eq (mem_filesOf_of_role hwrite hrole)
  have hname : pair.2.name ∈ plan.map (·.name) := by
    rw [← map_name_modules_split text plan]
    exact List.mem_map_of_mem (List.of_mem_zip hpair).2
  obtain ⟨entry, hentry, heq⟩ := List.mem_map.1 hname
  exact ⟨entry, hentry, by rw [hpath, heq]⟩

/-- The source has a parent, and its file name is what its parent lacks. -/
theorem exists_parent_of_isFile (h : tree.isFile job.source = true) :
    ∃ parent file, job.source.parent = some parent ∧ job.source.fileName = some file ∧
      job.source.components = parent.components ++ [.name file] := by
  obtain ⟨bytes, hread⟩ := isFile_iff.1 h
  obtain ⟨parent, file, hparent, _, hcomponents⟩ :=
    exists_parent (readBytes_eq_ok_iff.1 hread).2.1
  refine ⟨parent, file, hparent, ?_, hcomponents⟩
  rw [fileName, hcomponents, List.getLast?_concat]

/-- Module files stay off the source exactly if the output directory is no other spelling of the
source's directory with a module that is named like the source. -/
theorem apart_iff_not_disguised (job : Job) (imports : ImportTable) (plan : Plan) (tree : FileTree)
    (hnames : ∀ entry ∈ plan, Identifier.isUsable entry.name = true)
    (hsource : tree.isFile job.source = true)
    (hguard : ∀ name, (job.runOn imports plan tree).1 ≠ .error (.overSource name)) :
    ((∀ entry ∈ plan, tree.place (job.modulePath entry.name) ≠ tree.place job.source)
      ↔ ¬ job.Disguised plan tree) ∧
    (¬ job.Disguised plan tree → ∀ done, (job.runOn imports plan tree).1 = .ok done →
      ∀ write ∈ (done.report job).files, write.role = .module →
        tree.place write.path ≠ tree.place job.source) := by
  obtain ⟨parent, file, hparent, hfile, hcomponents⟩ := exists_parent_of_isFile hsource
  have hiff : (∀ entry ∈ plan, tree.place (job.modulePath entry.name) ≠ tree.place job.source)
      ↔ ¬ job.Disguised plan tree := by
    constructor
    · rintro hapart ⟨directory, above, hdirectory, habove, _, hplace, entry, hentry, hnamed⟩
      refine hapart entry hentry ((place_modulePath_eq_iff (hnames entry hentry) hcomponents).2 ?_)
      rw [hparent, Option.some.injEq] at habove
      rw [hfile, Option.some.injEq] at hnamed
      rw [Job.directory, hdirectory, habove]
      exact ⟨hplace, hnamed.symm⟩
    · intro hplain entry hentry hsame
      obtain ⟨hplace, hnamed⟩ :=
        (place_modulePath_eq_iff (hnames entry hentry) hcomponents).1 hsame
      -- the guard let the module pass, so the directories are written differently
      have hspelled : ¬ job.directory.Same parent := by
        intro hdirectory
        have hover := (overwrites_iff (hnames entry hentry) hcomponents).2 ⟨hdirectory, hnamed⟩
        rw [overwrites_eq_false hsource hguard hentry] at hover
        cases hover
      cases hdirectory : job.outputDirectory with
      | none =>
        refine hspelled ?_
        rw [Job.directory, hdirectory, hparent]
        rfl
      | some directory =>
        rw [Job.directory, hdirectory] at hspelled hplace
        exact hplain ⟨directory, parent, hdirectory, hparent, hspelled, hplace, entry, hentry,
          by rw [hfile, hnamed]⟩
  refine ⟨hiff, fun hplain done hdone write hwrite hrole => ?_⟩
  obtain ⟨entry, hentry, hpath⟩ := exists_entry_of_file hdone hwrite hrole
  rw [hpath]
  exact hiff.2 hplain entry hentry

/-- The sample job with its module files in the working directory, which is the source's. -/
def dottedJob : Job :=
  { sampleJob with outputDirectory := some ⟨"."⟩ }

/-- A plan whose module is named like the source. -/
def namesakePlan : Plan :=
  [⟨"main", ["a"], [], []⟩]

/-- The guard lets a module pass that is written over the source, under another spelling. -/
theorem apart_iff_not_disguised_sample :
    Identifier.isUsable "main" = true ∧ sampleTree.isFile dottedJob.source = true ∧
      dottedJob.Disguised namesakePlan sampleTree ∧
      (∃ done, (dottedJob.runOn .empty namesakePlan sampleTree).1 = .ok done ∧
        (done.report dottedJob).files
          = [⟨⟨"main.rs.bak"⟩, .backup, .written⟩, ⟨⟨"./main.rs"⟩, .module, .written⟩,
            ⟨⟨"main.rs"⟩, .source, .written⟩]) ∧
      ¬ ∀ entry ∈ namesakePlan,
        sampleTree.place (dottedJob.modulePath entry.name) ≠ sampleTree.place dottedJob.source := by
  have hname : Identifier.isUsable "main" = true := by decide +kernel
  have hsource : sampleTree.isFile dottedJob.source = true := by decide +kernel
  have hdisguised : dottedJob.Disguised namesakePlan sampleTree :=
    ⟨⟨"."⟩, ⟨""⟩, rfl, by decide +kernel, by decide +kernel, by decide +kernel,
      ⟨"main", ["a"], [], []⟩, by decide +kernel, by decide +kernel⟩
  have hfiles : (match (dottedJob.runOn .empty namesakePlan sampleTree).1 with
      | .error _ => []
      | .ok done => (done.report dottedJob).files)
        = [⟨⟨"main.rs.bak"⟩, .backup, .written⟩, ⟨⟨"./main.rs"⟩, .module, .written⟩,
          ⟨⟨"main.rs"⟩, .source, .written⟩] := by
    decide +kernel
  split at hfiles
  · cases hfiles
  · rename_i done hdone
    have hguard : ∀ name,
        (dottedJob.runOn .empty namesakePlan sampleTree).1 ≠ .error (.overSource name) := by
      intro name hrefused
      rw [hdone] at hrefused
      cases hrefused
    have hexact := apart_iff_not_disguised dottedJob .empty namesakePlan sampleTree
      (by simpa [namesakePlan] using hname) hsource hguard
    refine ⟨hname, hsource, hdisguised, ⟨done, hdone, hfiles⟩, fun hapart => ?_⟩
    exact hexact.1.1 hapart hdisguised

end Job

end Carver
