import Carver.Proofs.Places

/-!
# Files and directories that are there

A file that can be read can be written, and a directory that is there is not made again. So once a
text was stored at a path, the directory that holds it is there (`holderThere_of_storeText`), and as
long as it is, storing a text at the path is writing it (`run_storeText_of_holderThere`).
-/

namespace Carver

namespace FileTree

variable {tree changed : FileTree} {path : Path}

theorem exists_last_of_slash (h : path.trail.slash = false) :
    ∃ name, path.trail.last = some name := by
  rw [Path.trail] at h ⊢
  split
  · rename_i hnone
    simp [hnone] at h
  · rename_i last hlast
    simp only [hlast] at h
    split at h
    · cases h
    · rename_i hdots
      rw [if_neg hdots]
      exact ⟨last, rfl⟩

/-- A file that can be read can be written. -/
theorem placeForFile_of_readBytes {bytes : ByteArray} (h : tree.readBytes path = .ok bytes) :
    tree.placeForFile path = .ok (tree.place path) := by
  obtain ⟨hlocate, hslash, hfile⟩ := readBytes_eq_ok_iff.1 h
  obtain ⟨name, hlast⟩ := exists_last_of_slash hslash
  rw [locate] at hlocate
  rw [placeForFile]
  split at hlocate
  · cases hlocate
  · simp only [hlast] at hlocate
    simp only [hlast, hslash, hlocate, hfile]
    rfl

/-- Writing the text that a file has changes nothing. -/
theorem exists_writeText_same {text : Text} (h : tree.readBytes path = .ok text.encode) :
    ∃ changed, tree.writeText path text = .ok changed ∧
      ∀ location, changed.get? location = tree.get? location := by
  have hplace := placeForFile_of_readBytes h
  refine ⟨_, by rw [writeText, writeBytes, hplace]; rfl, fun location => ?_⟩
  by_cases hlocation : location = tree.place path
  · have hfile := (readBytes_eq_ok_iff.1 h).2.2
    have hdirectory : tree.get? (tree.place path) ≠ some .directory := by simp [hfile]
    have hroot := ne_root_of_get? hdirectory
    rw [hlocation, get?_put_self hroot, hfile]
    rfl
  · exact get?_put_of_ne hlocation tree _

theorem Change.entryAt_directory {directories files : List Location}
    (h : Change directories files tree changed) (hpath : tree.entryAt path = .ok .directory) :
    changed.entryAt path = .ok .directory := by
  rw [entryAt] at hpath ⊢
  cases hlocate : tree.locate path with
  | error fault => simp [hlocate] at hpath
  | ok location =>
    have hdirectory : tree.get? location = some .directory := by
      simp only [hlocate] at hpath
      split at hpath
      · cases hpath
      · split at hpath <;> cases hpath
      · assumption
    simp only [h.locate hlocate, h.stays location hdirectory]

/-- A directory that was made is there. -/
theorem entryAt_of_makeDirectory (h : tree.makeDirectory path = .ok changed) :
    changed.entryAt path = .ok .directory := by
  have hchange := makeDirectory_eq_ok h
  rw [makeDirectory] at h
  split at h
  · cases h
  · rename_i holder hholder
    split at h
    · cases h
    · rename_i name hlast
      split at h
      · cases h
      · rename_i location hchild
        split at h
        · cases h
        · cases h
          have hlocate : tree.locate path = .ok location := by
            simp only [locate, hholder, hlast, hchild]
          have hroot : location ≠ [] := by
            rw [child_eq_ok hchild]
            simp
          simp only [entryAt, hchange.locate hlocate, get?_put_self hroot]

/-- A directory that is there is not made again. -/
theorem makeDirectory_of_entryAt (h : tree.entryAt path = .ok .directory) :
    tree.makeDirectory path = .error .alreadyExists := by
  rw [entryAt, locate] at h
  rw [makeDirectory]
  cases hholder : tree.holderOf path with
  | error fault => simp [hholder] at h
  | ok holder =>
    simp only [hholder] at h ⊢
    cases hlast : path.trail.last with
    | none => rfl
    | some name =>
      simp only [hlast] at h ⊢
      cases hchild : child holder name with
      | error fault => simp [hchild] at h
      | ok location =>
        simp only [hchild] at h ⊢
        split at h
        · cases h
        · simp [*]
        · simp [*]

theorem run_unlessDirectory_fst_iff {fault : Fault} :
    ((Disk.unlessDirectory path fault : StateM FileTree (Except Fault Unit)).run tree).1 = .ok ()
      ↔ tree.entryAt path = .ok .directory := by
  rw [Disk.unlessDirectory, run_bind, Disk.isDirectory, run_map, run_kindAt]
  cases tree.entryAt path with
  | error fault => simp
  | ok entry =>
    cases entry with
    | directory => exact ⟨fun _ => rfl, fun _ => rfl⟩
    | file bytes => simp [Entry.kind]

theorem run_makeDirectory (path : Path) (tree : FileTree) :
    (Disk.makeDirectory path : StateM FileTree (Except Fault Unit)).run tree =
      match tree.makeDirectory path with
      | .error fault => (Except.error fault, tree)
      | .ok changed => (Except.ok (), changed) :=
  rfl

/-- When directories have been made, the first of them is there. -/
theorem entryAt_of_makeChain {above : List Path} (hpath : path.text ≠ "")
    (h : (Disk.makeChain (path :: above) : StateM FileTree (Except Fault Unit)).run tree
      = (.ok (), changed)) : changed.entryAt path = .ok .directory := by
  have hunless : ∀ {fault : Fault} {mid : FileTree},
      (Disk.unlessDirectory path fault : StateM FileTree (Except Fault Unit)).run mid
        = (.ok (), changed) → changed.entryAt path = .ok .directory := by
    intro fault mid hrun
    have hmid := run_unlessDirectory_snd path fault mid
    rw [hrun] at hmid
    rw [show changed = mid from hmid]
    exact run_unlessDirectory_fst_iff.1 (congrArg Prod.fst hrun)
  rw [Disk.makeChain, if_neg hpath, run_bind, run_makeDirectory] at h
  cases hmade : tree.makeDirectory path with
  | ok made =>
    rw [hmade] at h
    cases h
    exact entryAt_of_makeDirectory hmade
  | error fault =>
    rw [hmade] at h
    simp only at h
    split at h
    · cases ‹Except.error fault = .ok ()›
    · rw [run_bind] at h
      split at h
      · cases h
      · rw [run_bind, run_makeDirectory] at h
        generalize ((Disk.makeChain above : StateM FileTree (Except Fault Unit)).run tree).2 = high
          at h
        cases hretry : high.makeDirectory path with
        | ok made =>
          rw [hretry] at h
          cases h
          exact entryAt_of_makeDirectory hretry
        | error fault =>
          rw [hretry] at h
          exact hunless h
    · exact hunless h

/-- Directories are not made if the first of them is there. -/
theorem run_makeChain_of_entryAt {above : List Path} (h : tree.entryAt path = .ok .directory) :
    (Disk.makeChain (path :: above) : StateM FileTree (Except Fault Unit)).run tree
      = (.ok (), tree) := by
  rw [Disk.makeChain]
  split
  · rfl
  · rw [run_bind, run_makeDirectory, makeDirectory_of_entryAt h]
    refine Prod.ext ?_ ?_
    · exact run_unlessDirectory_fst_iff.2 h
    · exact run_unlessDirectory_snd path .alreadyExists tree

/-- The directory that holds the path is there, if the path names one. -/
def HolderThere (tree : FileTree) (path : Path) : Prop :=
  ∀ directory, Disk.holder? path = some directory → tree.entryAt directory = .ok .directory

theorem Change.holderThere {directories files : List Location}
    (h : Change directories files tree changed) (hholder : tree.HolderThere path) :
    changed.HolderThere path :=
  fun directory hdirectory => h.entryAt_directory (hholder directory hdirectory)

theorem ne_empty_of_holder? {directory : Path} (h : Disk.holder? path = some directory) :
    directory.text ≠ "" := by
  rw [Disk.holder?, Option.filter_eq_some_iff] at h
  simpa using h.2

/-- A text that was stored has the directory that holds it. -/
theorem holderThere_of_storeText {text : Text}
    (h : (Disk.storeText path text : StateM FileTree (Except Fault Unit)).run tree
      = (.ok (), changed)) : changed.HolderThere path := by
  intro directory hdirectory
  rw [Disk.storeText, hdirectory] at h
  simp only [run_bind] at h
  generalize hmade : (Disk.makeDirectories directory : StateM FileTree (Except Fault Unit)).run tree
    = made at h
  obtain ⟨_ | ⟨⟩, mid⟩ := made
  · cases h
  · have hmid := entryAt_of_makeChain (ne_empty_of_holder? hdirectory) hmade
    simp only [run_writeText] at h
    cases hwrite : mid.writeText path text with
    | error fault =>
      rw [hwrite] at h
      cases h
    | ok last =>
      rw [hwrite] at h
      cases h
      exact (writeText_eq_ok hwrite).1.entryAt_directory hmid

/-- Where the directory is there, storing a text is writing it. -/
theorem run_storeText_of_holderThere (text : Text) (h : tree.HolderThere path) :
    (Disk.storeText path text : StateM FileTree (Except Fault Unit)).run tree =
      match tree.writeText path text with
      | .error fault => (Except.error fault, tree)
      | .ok changed => (Except.ok (), changed) := by
  rw [Disk.storeText]
  cases hholder : Disk.holder? path with
  | none => rfl
  | some directory =>
    have hmade : (Disk.makeDirectories directory : StateM FileTree (Except Fault Unit)).run tree
        = (.ok (), tree) := run_makeChain_of_entryAt (h directory hholder)
    simp only [run_bind, hmade]
    exact run_writeText path text tree

end FileTree

end Carver
