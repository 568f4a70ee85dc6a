import Carver.Proofs.JoinedPaths

/-!
# Components and places

The components of a path lead to the place that it denotes (`FileTree.placeFrom_eq_foldl`), so paths
with the same components denote the same place. The converse is wrong: `..` takes a step back, and a
leading `.` is a component that leads nowhere. A joined name is the last component
(`Path.components_join`), and the parent of a path has all its components but the last, whatever the
path is (`Path.parent_cases`).
-/

namespace Carver

namespace Path

theorem not_mem_of_mem_segments {path : Path} {segment : String} (h : segment ∈ path.segments) :
    '/' ∉ segment.toList := by
  obtain ⟨piece, hpiece, rfl⟩ := List.mem_map.1 h
  rw [String.toList_ofList]
  exact Text.not_mem_of_mem_piecesBy hpiece

theorem segments_ofSegments {segments : List String} (hne : segments ≠ [])
    (h : ∀ segment ∈ segments, '/' ∉ segment.toList) :
    (ofSegments segments).segments = segments := by
  have hpieces : ∀ piece ∈ segments.map String.toList, '/' ∉ piece := by
    simpa using h
  rw [Path.segments, ofSegments, String.toList_ofList,
    Text.piecesBy_intercalate (by simpa using hne) hpieces, List.map_map]
  simp [Function.comp_def]

namespace IsFileName

variable {name : String}

theorem isIdle_eq (h : IsFileName name) : isIdle name = false := by
  simp [isIdle, h.ne_empty, h.ne_dot]

theorem component_eq (h : IsFileName name) : component name = .name name :=
  if_neg h.ne_dots

end IsFileName

/-- What the first of several pieces stands for. -/
def opening (first : String) : List Component :=
  if first = "" then [.root] else if first = "." then [.current] else [component first]

/-- What the pieces after the first one stand for. -/
def onwards (segments : List String) : List Component :=
  (segments.filter (!isIdle ·)).map component

theorem components_of_ne {path : Path} {first : String} {rest : List String}
    (h : path.segments = first :: rest) (hrest : first = "" → rest ≠ []) :
    path.components = opening first ++ onwards rest := by
  rw [components, h]
  by_cases hfirst : first = ""
  · have hisEmpty : rest.isEmpty = false := by simpa using hrest hfirst
    simp [hfirst, opening, onwards, hisEmpty]
  · simp [hfirst, opening, onwards]

theorem onwards_append (segments more : List String) :
    onwards (segments ++ more) = onwards segments ++ onwards more := by
  rw [onwards, List.filter_append, List.map_append, onwards, onwards]

theorem onwards_name {name : String} (h : IsFileName name) : onwards [name] = [.name name] := by
  simp [onwards, h.isIdle_eq, h.component_eq]

theorem onwards_dropIdle (segments : List String) :
    onwards (dropIdle segments) = onwards segments := by
  have hdropped : (segments.reverse.takeWhile isIdle).filter (!isIdle ·) = [] := by
    rw [List.filter_eq_nil_iff]
    intro segment hsegment
    have hidle : isIdle segment = true := List.all_eq_true.1 List.all_takeWhile segment hsegment
    simp [hidle]
  have hkept : segments.reverse.filter (!isIdle ·)
      = (segments.reverse.dropWhile isIdle).filter (!isIdle ·) := by
    rw [← List.takeWhile_append_dropWhile (p := isIdle) (l := segments.reverse)]
    rw [List.filter_append, List.takeWhile_append_dropWhile, hdropped, List.nil_append]
  rw [onwards, onwards, dropIdle, List.filter_reverse, ← hkept, List.filter_reverse,
    List.reverse_reverse]

theorem mem_of_mem_dropIdle {segments : List String} {segment : String}
    (h : segment ∈ dropIdle segments) : segment ∈ segments := by
  rw [dropIdle, List.mem_reverse] at h
  exact List.mem_reverse.1 ((List.dropWhile_sublist _).subset h)

/-- After idle pieces are dropped, a piece with a component is the last one, if any is left. -/
theorem dropIdle_cases (segments : List String) :
    dropIdle segments = [] ∨
      ∃ front last, dropIdle segments = front ++ [last] ∧ isIdle last = false := by
  cases hdropped : segments.reverse.dropWhile isIdle with
  | nil => exact .inl (by rw [dropIdle, hdropped, List.reverse_nil])
  | cons last others =>
    refine .inr ⟨others.reverse, last, by rw [dropIdle, hdropped, List.reverse_cons], ?_⟩
    have hlast := List.head?_dropWhile_not isIdle segments.reverse
    rw [hdropped] at hlast
    exact hlast

/-- A path that ends in the name of a file has one component more than the pieces before it. -/
theorem components_concat {path : Path} {first : String} {rest : List String} {name : String}
    (hname : IsFileName name) (h : path.segments = first :: rest ++ [name]) :
    path.components = opening first ++ onwards rest ++ [.name name] := by
  rw [List.cons_append] at h
  rw [components_of_ne h (by simp), onwards_append, onwards_name hname, List.append_assoc]

theorem components_single {path : Path} {name : String} (hname : IsFileName name)
    (h : path.segments = [name]) : path.components = [.name name] := by
  rw [components_of_ne h fun hempty => absurd hempty hname.ne_empty, opening,
    if_neg hname.ne_empty, if_neg hname.ne_dot, hname.component_eq]
  rfl

/-- A joined name is the last component. -/
theorem components_join (directory : Path) {name : String} (hname : IsFileName name) :
    (directory.join name).components = directory.components ++ [.name name] := by
  obtain ⟨front, hdirectory, hjoin⟩ := exists_segments_join directory hname
  cases front with
  | nil =>
    have hsegments : directory.segments = [""] :=
      hdirectory.resolve_right fun hnil => directory.segments_ne_nil hnil.1
    have hempty : directory.components = [] := by
      rw [components, hsegments]
      rfl
    rw [components_single hname hjoin, hempty, List.nil_append]
  | cons first rest =>
    rw [components_concat hname hjoin]
    rcases hdirectory with hdirectory | ⟨hdirectory, hne⟩
    · rw [List.cons_append] at hdirectory
      have hslash : onwards [""] = [] := rfl
      rw [components_of_ne hdirectory (by simp), onwards_append, hslash, List.append_nil]
    · rw [components_of_ne hdirectory]
      rintro rfl rfl
      exact hne rfl

/-- A path that ends neither in a slash nor in a dot name ends in the name of a file. -/
theorem exists_segments_of_slash {path : Path} (h : path.trail.slash = false) :
    ∃ front name, path.segments = front ++ [name] ∧ IsFileName name := by
  obtain ⟨front, name, hsegments⟩ :=
    (List.eq_nil_or_concat path.segments).resolve_left path.segments_ne_nil
  rw [List.concat_eq_append] at hsegments
  have hmem : name ∈ path.segments := by simp [hsegments]
  refine ⟨front, name, hsegments, ?_⟩
  by_cases hempty : name = ""
  · rw [trail] at h
    split at h
    · cases h
    · split at h
      · cases h
      · simp [hsegments, hempty] at h
  · have hlast : (path.segments.filter (· != "")).getLast? = some name := by
      rw [hsegments]
      simp [hempty]
    simp only [trail, hlast] at h
    split at h
    · cases h
    · rename_i hdot
      rw [Bool.or_eq_true, decide_eq_true_eq, decide_eq_true_eq, not_or] at hdot
      exact ⟨hempty, hdot.1, hdot.2, not_mem_of_mem_segments hmem⟩

/-- What is left of a path when its last piece with a component is taken away. -/
theorem components_above {first : String} {kept : List String}
    (h : ∀ segment ∈ first :: kept, '/' ∉ segment.toList) :
    (if kept = [] then if first = "" then ⟨"/"⟩ else ⟨first⟩
      else ofSegments (first :: kept) : Path).components = opening first ++ onwards kept := by
  cases kept with
  | nil =>
    rw [if_pos rfl]
    by_cases hfirst : first = ""
    · rw [hfirst]
      rfl
    · have halone : (⟨first⟩ : Path).segments = [first] := by
        simp [segments, Text.piecesBy_of_not_mem (h first (by simp))]
      rw [if_neg hfirst, components_of_ne halone fun hempty => absurd hempty hfirst]
  | cons next kept =>
    rw [if_neg (by simp), components_of_ne (segments_ofSegments (by simp) h) (by simp)]

theorem parent_eq_of_segments {path : Path} {first last : String} {rest front : List String}
    (h : path.segments = first :: rest) (hrest : dropIdle rest = front ++ [last]) :
    path.parent = some (if dropIdle front = [] then if first = "" then ⟨"/"⟩ else ⟨first⟩
      else ofSegments (first :: dropIdle front)) := by
  rw [parent, h]
  simp only [hrest]
  cases hreal : front ++ [last] with
  | nil => simp at hreal
  | cons next more =>
    simp only
    rw [← hreal, List.dropLast_concat]
    cases dropIdle front <;> rfl

/-- The parent of a path has all its components but the last. Only the empty path and the root have
no parent. -/
theorem parent_cases (path : Path) :
    path.parent = none ∧ (path.components = [] ∨ path.components = [.root]) ∨
      ∃ above last, path.parent = some above ∧ path.components = above.components ++ [last] := by
  obtain ⟨first, rest, hsegments⟩ := List.exists_cons_of_ne_nil path.segments_ne_nil
  rcases dropIdle_cases rest with hidle | ⟨front, last, hreal, hlast⟩
  · have honwards : onwards rest = [] := by
      rw [← onwards_dropIdle, hidle]
      rfl
    by_cases hfirst : first = ""
    · refine .inl ⟨by simp [parent, hsegments, hidle, hfirst], ?_⟩
      cases rest with
      | nil =>
        left
        rw [components, hsegments, hfirst]
        rfl
      | cons next more =>
        right
        rw [components_of_ne hsegments (by simp), honwards, hfirst]
        rfl
    · refine .inr ⟨⟨""⟩, if first = "." then .current else component first, ?_, ?_⟩
      · simp [parent, hsegments, hidle, hfirst]
      · rw [components_of_ne hsegments fun hempty => absurd hempty hfirst, honwards, opening,
          if_neg hfirst]
        split <;> rfl
  · refine .inr ⟨_, component last, parent_eq_of_segments hsegments hreal, ?_⟩
    have hpieces : ∀ segment ∈ first :: dropIdle front, '/' ∉ segment.toList := by
      intro segment hsegment
      suffices hmem : segment ∈ path.segments from not_mem_of_mem_segments hmem
      rw [hsegments]
      rcases List.mem_cons.1 hsegment with rfl | hsegment
      · exact List.mem_cons_self
      · refine List.mem_cons_of_mem _ (mem_of_mem_dropIdle ?_)
        rw [hreal]
        exact List.mem_append_left _ (mem_of_mem_dropIdle hsegment)
    have hrest : rest ≠ [] := by
      rintro rfl
      simp [dropIdle] at hreal
    have hkept : onwards [last] = [component last] := by
      simp [onwards, hlast]
    rw [components_above hpieces, onwards_dropIdle, components_of_ne hsegments fun _ => hrest,
      ← onwards_dropIdle rest, hreal, onwards_append, hkept, List.append_assoc]

theorem fileName_eq_some_iff {path : Path} {name : String} :
    path.fileName = some name ↔ path.components.getLast? = some (.name name) := by
  rw [fileName]
  split
  · rename_i text hlast
    rw [hlast]
    simp
  · rename_i hlast
    refine iff_of_false (by simp) fun hname => hlast name hname

/-- A path with a file name has a parent, which lacks only that name. -/
theorem exists_parent_of_fileName {path : Path} {name : String} (h : path.fileName = some name) :
    ∃ parent, path.parent = some parent ∧
      path.components = parent.components ++ [.name name] := by
  rw [fileName_eq_some_iff] at h
  rcases parent_cases path with ⟨_, hnil | hroot⟩ | ⟨above, last, hparent, hcomponents⟩
  · rw [hnil] at h
    cases h
  · rw [hroot] at h
    cases h
  · rw [hcomponents, List.getLast?_concat, Option.some.injEq] at h
    exact ⟨above, hparent, by rw [hcomponents, h]⟩

theorem fileName_join (directory : Path) {name : String} (hname : IsFileName name) :
    (directory.join name).fileName = some name := by
  rw [fileName_eq_some_iff, components_join directory hname, List.getLast?_concat]

/-- The parent of a joined path is the directory, though it may be written in another way. -/
theorem exists_parent_join (directory : Path) {name : String} (hname : IsFileName name) :
    ∃ parent, (directory.join name).parent = some parent ∧ parent.Same directory := by
  obtain ⟨parent, hparent, hcomponents⟩ :=
    exists_parent_of_fileName (fileName_join directory hname)
  rw [components_join directory hname] at hcomponents
  exact ⟨parent, hparent, (List.append_cancel_right hcomponents).symm⟩

/-- The parent of a path to a file has all its components but the last, the name of the file. -/
theorem exists_parent {path : Path} (h : path.trail.slash = false) :
    ∃ parent name, path.parent = some parent ∧ IsFileName name ∧
      path.components = parent.components ++ [.name name] := by
  obtain ⟨front, name, hsegments, hname⟩ := exists_segments_of_slash h
  have hlast : path.components.getLast? = some (.name name) := by
    cases front with
    | nil => rw [components_single hname hsegments, List.getLast?_singleton]
    | cons first rest => rw [components_concat hname hsegments, List.getLast?_concat]
  obtain ⟨parent, hparent, hcomponents⟩ :=
    exists_parent_of_fileName (fileName_eq_some_iff.2 hlast)
  exact ⟨parent, name, hparent, hname, hcomponents⟩

end Path

namespace FileTree

open Carver.Path

/-- Where a component leads. -/
def lead (location : Location) : Component → Location
  | .root => []
  | .current => location
  | .up => location.dropLast
  | .name text => location ++ [text]

theorem resolve_eq_foldl (location : Location) (segments : List String) :
    resolve location (segments.filter (· != "")) = (onwards segments).foldl lead location := by
  induction segments generalizing location with
  | nil => rfl
  | cons segment rest ih =>
    by_cases hempty : segment = ""
    · subst hempty
      exact ih location
    · rw [List.filter_cons_of_pos (by simpa using hempty), resolve]
      by_cases hdot : segment = "."
      · subst hdot
        exact ih location
      · have hkept : onwards (segment :: rest) = component segment :: onwards rest := by
          simp [onwards, isIdle, hempty, hdot]
        rw [if_neg hdot, hkept, List.foldl_cons, component]
        split
        · exact ih _
        · exact ih _

theorem resolve_concat (location : Location) (steps : List String) {name : String}
    (hdot : name ≠ ".") (hdots : name ≠ "..") :
    resolve location (steps ++ [name]) = resolve location steps ++ [name] := by
  induction steps generalizing location with
  | nil => simp [resolve, hdot, hdots]
  | cons step rest ih =>
    rw [List.cons_append, resolve, resolve]
    split
    · exact ih location
    · split
      · exact ih _
      · exact ih _

/-- The last name leads on like the names before it. -/
theorem placeFrom_eq_resolve (home : Location) (path : Path) :
    placeFrom home path = resolve (if path.isAbsolute then [] else home) path.names := by
  rw [placeFrom, trail, ← names]
  cases hlast : path.names.getLast? with
  | none =>
    rw [List.getLast?_eq_none_iff.1 hlast]
    exact List.append_nil _
  | some last =>
    obtain ⟨front, hfront⟩ := List.getLast?_eq_some_iff.1 hlast
    by_cases hdot : last = "." || last = ".."
    · simp only [hdot]
      exact List.append_nil _
    · simp only [hdot]
      rw [Bool.or_eq_true, decide_eq_true_eq, decide_eq_true_eq, not_or] at hdot
      rw [hfront, resolve_concat _ _ hdot.1 hdot.2]
      simp

/-- The components of a path lead to its place. -/
theorem placeFrom_eq_foldl (home : Location) (path : Path) :
    placeFrom home path = path.components.foldl lead home := by
  obtain ⟨first, rest, hsegments⟩ := List.exists_cons_of_ne_nil path.segments_ne_nil
  have habsolute := isAbsolute_iff hsegments
  rw [placeFrom_eq_resolve, names, resolve_eq_foldl, hsegments]
  by_cases hfirst : first = ""
  · subst hfirst
    have hskip : onwards ("" :: rest) = onwards rest := rfl
    cases rest with
    | nil =>
      have hempty : path.components = [] := by
        rw [components, hsegments]
        rfl
      rw [if_neg (by simp [habsolute]), hempty]
      rfl
    | cons next more =>
      rw [if_pos (by simp [habsolute]), hskip, components_of_ne hsegments (by simp)]
      rfl
  · have hopening : onwards (first :: rest) = onwards [first] ++ onwards rest :=
      onwards_append [first] rest
    have hlead : (onwards [first]).foldl lead home = (opening first).foldl lead home := by
      by_cases hdot : first = "."
      · subst hdot
        rfl
      · simp [onwards, opening, isIdle, hfirst, hdot]
    rw [if_neg (by simp [habsolute, hfirst]), components_of_ne hsegments fun h => absurd h hfirst,
      hopening, List.foldl_append, List.foldl_append, hlead]

end FileTree

end Carver
