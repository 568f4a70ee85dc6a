import Carver.Proofs.JoinedPaths
import Carver.Proofs.Outcome
import Mathlib.Data.List.Basic

/-!
# Looking for a file

A file is looked for under its path in the working directory and then in each directory above it,
the path with as many steps upwards in front (`FileTree.entryAt_climb`). What is found is the
nearest file; a directory of that name does not end the search (`FileTree.findFile_eq_some_iff`).
-/

namespace Carver

/-! ## Steps upwards -/

namespace Path

@[simp] theorem climb_zero (path : Path) : path.climb 0 = path := by
  simp [climb]

theorem segments_climb (path : Path) (levels : Nat) :
    (path.climb levels).segments = List.replicate levels ".." ++ path.segments := by
  rw [segments, climb, String.toList_ofList]
  induction levels with
  | zero => rfl
  | succ levels ih =>
    have hstep : ((List.replicate (levels + 1) ['.', '.', '/']).flatten ++ path.text.toList)
        = ['.', '.'] ++ '/' :: ((List.replicate levels ['.', '.', '/']).flatten
          ++ path.text.toList) := by
      simp [List.replicate_succ]
    rw [hstep, Text.piecesBy_append_cons, Text.piecesBy_of_not_mem (by decide), List.map_append,
      ih, List.replicate_succ, List.cons_append]
    rfl

/-- Steps upwards are directories to pass in front of the others. -/
theorem trail_climb (path : Path) (levels : Nat) :
    (path.climb levels).trail
      = { path.trail with steps := List.replicate levels ".." ++ path.trail.steps } := by
  have hnames : (path.climb levels).segments.filter (· != "")
      = List.replicate levels ".." ++ path.segments.filter (· != "") := by
    rw [segments_climb, List.filter_append, List.filter_replicate_of_pos (by decide)]
  have hlast : (path.climb levels).segments.getLast? = path.segments.getLast? := by
    rw [segments_climb, List.getLast?_append_of_ne_nil _ path.segments_ne_nil]
  rw [trail, trail, hnames, hlast]
  cases hfound : (path.segments.filter (· != "")).getLast? with
  | none =>
    rw [List.getLast?_eq_none_iff] at hfound
    rw [hfound, List.append_nil]
    cases levels with
    | zero => rfl
    | succ levels => simp [List.replicate_succ']
  | some last =>
    have hne : path.segments.filter (· != "") ≠ [] := by
      intro hnil
      rw [hnil] at hfound
      cases hfound
    rw [List.getLast?_append_of_ne_nil _ hne, hfound]
    dsimp only
    split
    · rfl
    · rw [List.dropLast_append_of_ne_nil hne]

theorem isAbsolute_climb {path : Path} (h : path.isAbsolute = false) (levels : Nat) :
    (path.climb levels).isAbsolute = false := by
  cases levels with
  | zero => rwa [climb_zero]
  | succ levels => simp [isAbsolute, climb, List.replicate_succ]

end Path

namespace FileTree

/-- The tree seen from as many directories further up. -/
def ascend (tree : FileTree) (levels : Nat) : FileTree :=
  { tree with home := tree.home.take (tree.home.length - levels) }

theorem walk_replicate (tree : FileTree) (location : Location) (levels : Nat)
    (steps : List String) :
    tree.walk location (List.replicate levels ".." ++ steps)
      = tree.walk (location.take (location.length - levels)) steps := by
  induction levels generalizing location with
  | zero => simp
  | succ levels ih =>
    rw [List.replicate_succ, List.cons_append, walk, if_neg (by decide), if_pos rfl, ih,
      List.dropLast_eq_take, List.take_take, List.length_take]
    congr 2
    omega

/-- Where a directory leads does not depend on where the tree is seen from. -/
theorem walk_ascend (tree : FileTree) (levels : Nat) (location : Location) (steps : List String) :
    (tree.ascend levels).walk location steps = tree.walk location steps := by
  induction steps generalizing location with
  | nil => rfl
  | cons step rest ih =>
    have hget : ∀ next, (tree.ascend levels).get? next = tree.get? next := fun _ => rfl
    simp only [walk, ih, hget]

/-- A path with steps upwards leads to where the path leads from further up. -/
theorem entryAt_climb {path : Path} (hrelative : path.isAbsolute = false) {levels : Nat}
    (hpath : checkPath path = .ok ()) (hclimb : checkPath (path.climb levels) = .ok ())
    (tree : FileTree) : tree.entryAt (path.climb levels) = (tree.ascend levels).entryAt path := by
  have hholder : tree.holderOf (path.climb levels) = (tree.ascend levels).holderOf path := by
    rw [holderOf, holderOf, hpath, hclimb, Path.trail_climb, Path.isAbsolute_climb hrelative,
      hrelative]
    exact (walk_replicate tree tree.home levels path.trail.steps).trans
      (walk_ascend tree levels _ _).symm
  rw [entryAt, entryAt, locate, locate, hholder, Path.trail_climb]
  rfl

/-! ## The nearest file -/

/-- The first of the paths of a file under which there is one. -/
def findFile (tree : FileTree) (path : Path) : Option Path :=
  (path.lookups tree.home.length).find? tree.isFile

theorem run_firstThat {test : Path → StateM FileTree Bool} {holds : Path → Bool} {tree : FileTree}
    (h : ∀ path, (test path).run tree = (holds path, tree)) (paths : List Path) :
    (Disk.firstThat test paths : StateM FileTree _).run tree = (paths.find? holds, tree) := by
  induction paths with
  | nil => rfl
  | cons path paths ih =>
    rw [Disk.firstThat, run_bind, h, List.find?_cons]
    cases holds path with
    | true => rfl
    | false => exact ih

theorem run_findFile (tree : FileTree) (path : Path) :
    (Disk.findFile path : StateM FileTree _).run tree = (tree.findFile path, tree) := by
  have hdepth : (Disk.depth : StateM FileTree Nat).run tree = (tree.home.length, tree) := rfl
  rw [Disk.findFile, run_bind, hdepth, run_firstThat tree.run_isFile, findFile]

/-- A file at the path itself is found there. -/
theorem findFile_of_isFile {tree : FileTree} {path : Path} (h : tree.isFile path = true) :
    tree.findFile path = some path := by
  rw [findFile, Path.lookups]
  split
  · rw [List.find?_singleton, if_pos h]
  · rw [List.range_succ_eq_map, List.map_cons, Path.climb_zero, List.find?_cons_of_pos h]

/-- What is found for a path that is not absolute is the nearest file: there is none further
down. -/
theorem findFile_eq_some_iff {tree : FileTree} {path found : Path}
    (hrelative : path.isAbsolute = false) :
    tree.findFile path = some found ↔
      ∃ levels ≤ tree.home.length, found = path.climb levels ∧ tree.isFile found = true ∧
        ∀ lower < levels, tree.isFile (path.climb lower) = false := by
  rw [findFile, Path.lookups, if_neg (by simp [hrelative]), List.find?_map, Option.map_eq_some_iff]
  constructor
  · rintro ⟨levels, hfind, rfl⟩
    obtain ⟨hfile, hmem, hbefore⟩ := List.find?_range_eq_some.1 hfind
    rw [List.mem_range] at hmem
    exact ⟨levels, by omega, rfl, hfile, fun lower hlower => by simpa using hbefore lower hlower⟩
  · rintro ⟨levels, hlevels, rfl, hfile, hbefore⟩
    refine ⟨levels, List.find?_range_eq_some.2 ⟨hfile, ?_, fun lower hlower => ?_⟩, rfl⟩
    · exact List.mem_range.2 (by omega)
    · simpa using hbefore lower hlower

/-- A directory of the name does not end the search. -/
example : ((Disk.findFile ⟨"a.toml"⟩ : StateM FileTree _).run ⟨["work", "in"],
    [(["work"], .directory), (["work", "in"], .directory), (["work", "in", "a.toml"], .directory),
      (["work", "a.toml"], .file ByteArray.empty)]⟩).1 = some ⟨"../a.toml"⟩ := by
  decide +kernel

end FileTree

end Carver
