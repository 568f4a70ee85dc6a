import Carver.Job
import Carver.Proofs.Names
import Carver.Proofs.Pieces
import Carver.Proofs.Places

/-!
# Paths of module files

The file of a module lies in the directory of the modules under the name of the module, so modules
with different names have different places (`place_modulePath_injective`). A name is usable here as
soon as it makes up one piece of a path that leads down.
-/

namespace Carver

namespace Path

/-- A name that makes up one piece of a path, and leads down. -/
structure IsFileName (name : String) : Prop where
  ne_empty : name ≠ ""
  ne_dot : name ≠ "."
  ne_dots : name ≠ ".."
  no_slash : '/' ∉ name.toList

/-- The pieces of a path that are not empty. -/
def names (path : Path) : List String :=
  path.segments.filter (· != "")

theorem segments_slash (text : String) {name : String} (hname : '/' ∉ name.toList) :
    (⟨text ++ "/" ++ name⟩ : Path).segments = (⟨text⟩ : Path).segments ++ [name] := by
  have htext : (text ++ "/" ++ name).toList = text.toList ++ '/' :: name.toList := by
    simp
  rw [segments, htext, Text.piecesBy_append_cons, Text.piecesBy_of_not_mem hname]
  simp [segments]

theorem trail_eq_of_segments {path : Path} {front : List String} {name : String}
    (hname : IsFileName name) (h : path.segments = front ++ [name]) :
    path.trail = ⟨front.filter (· != ""), some name, false⟩ := by
  have hnames : path.segments.filter (· != "") = front.filter (· != "") ++ [name] := by
    simp [h, hname.ne_empty]
  rw [trail, hnames, List.getLast?_concat]
  simp [hname.ne_dot, hname.ne_dots, hname.ne_empty, h]

theorem segments_ne_nil (path : Path) : path.segments ≠ [] := by
  rw [segments, ne_eq, List.map_eq_nil_iff]
  exact Text.piecesBy_ne_nil '/' _

/-- A path starts at the root if nothing stands before its first slash. -/
theorem isAbsolute_iff {path : Path} {first : String} {rest : List String}
    (h : path.segments = first :: rest) : path.isAbsolute = true ↔ first = "" ∧ rest ≠ [] := by
  rw [segments] at h
  rw [isAbsolute, beq_iff_eq]
  cases htext : path.text.toList with
  | nil =>
    rw [htext] at h
    simp only [Text.piecesBy, List.map_cons, List.map_nil, List.cons.injEq] at h
    simp [← h.2]
  | cons c chars =>
    rw [htext, Text.piecesBy] at h
    split at h
    · rename_i hc
      simp only [List.map_cons, List.cons.injEq] at h
      have hrest : rest ≠ [] := by
        rw [← h.2, ne_eq, List.map_eq_nil_iff]
        exact Text.piecesBy_ne_nil '/' chars
      simp [hc, ← h.1, hrest]
    · rename_i hc
      have hfirst : first ≠ "" := by
        rintro rfl
        split at h
        · simp at h
        · simp at h
      simp [hc, hfirst]

/-- One empty piece is an empty path. -/
theorem segments_ne_empty {path : Path} (h : path.text ≠ "") : path.segments ≠ [""] := by
  have hne : path.text.toList ≠ [] := by simpa using h
  obtain ⟨c, chars, hchars⟩ := List.exists_cons_of_ne_nil hne
  intro hsegments
  rw [segments, hchars, Text.piecesBy] at hsegments
  split at hsegments
  · simp [Text.piecesBy_ne_nil] at hsegments
  · split at hsegments <;> simp at hsegments

/-- A joined name is a piece of its own, in place of an empty one at the end. -/
theorem exists_segments_join (directory : Path) {name : String} (hname : IsFileName name) :
    ∃ front, (directory.segments = front ++ [""] ∨ directory.segments = front ∧ front ≠ [""]) ∧
      (directory.join name).segments = front ++ [name] := by
  obtain ⟨text⟩ := directory
  have hhead : name.toList.head? ≠ some '/' := by
    intro hslash
    exact hname.no_slash (List.mem_of_mem_head? hslash)
  rw [join, if_neg hhead]
  by_cases hempty : text = ""
  · subst hempty
    rw [if_pos (by simp)]
    exact ⟨[], .inl rfl, by simp [segments, Text.piecesBy_of_not_mem hname.no_slash]⟩
  · by_cases hslash : text.toList.getLast? = some '/'
    -- the slash at the end of the directory is the one that separates the name
    · obtain ⟨front, rfl⟩ : ∃ front : String, text = front ++ "/" := by
        obtain ⟨chars, hchars⟩ := List.getLast?_eq_some_iff.1 hslash
        refine ⟨String.ofList chars, ?_⟩
        rw [← String.toList_inj, hchars]
        simp
      have hdirectory := @segments_slash front "" (by simp)
      rw [String.append_empty] at hdirectory
      rw [if_pos (by simp)]
      exact ⟨_, .inl hdirectory, segments_slash front hname.no_slash⟩
    · rw [if_neg (by simp [hempty, hslash])]
      exact ⟨_, .inr ⟨rfl, segments_ne_empty hempty⟩, segments_slash text hname.no_slash⟩

/-- A joined path goes through the names of the directory to the name. -/
theorem trail_join (directory : Path) {name : String} (hname : IsFileName name) :
    (directory.join name).trail = ⟨directory.names, some name, false⟩ ∧
      (directory.join name).isAbsolute = directory.isAbsolute := by
  obtain ⟨front, hdirectory, hjoin⟩ := exists_segments_join directory hname
  constructor
  · rw [trail_eq_of_segments hname hjoin, names]
    rcases hdirectory with hdirectory | ⟨hdirectory, _⟩ <;> simp [hdirectory]
  · rw [Bool.eq_iff_iff]
    cases front with
    | nil =>
      have hsegments : directory.segments = [""] :=
        hdirectory.resolve_right fun hnil => directory.segments_ne_nil hnil.1
      rw [isAbsolute_iff hjoin, isAbsolute_iff hsegments]
      simp [hname.ne_empty]
    | cons first rest =>
      rw [isAbsolute_iff hjoin]
      rcases hdirectory with hdirectory | ⟨hdirectory, hne⟩
      · rw [isAbsolute_iff hdirectory]
        simp
      · have hrest : first = "" → rest ≠ [] := by
          rintro rfl rfl
          exact hne rfl
        rw [isAbsolute_iff hdirectory]
        simpa using hrest

end Path

namespace FileTree

/-- The place of a file in a directory that is named by a path. -/
theorem placeFrom_join (home : Location) (directory : Path) {name : String}
    (hname : Path.IsFileName name) :
    placeFrom home (directory.join name)
      = resolve (if directory.isAbsolute then [] else home) directory.names ++ [name] := by
  obtain ⟨htrail, habsolute⟩ := Path.trail_join directory hname
  rw [placeFrom, htrail, habsolute]
  rfl

end FileTree

/-- A usable name gives the name of a file. -/
theorem isFileName_of_isUsable {name : String} (h : Identifier.isUsable name = true) :
    Path.IsFileName (name ++ ".rs") := by
  obtain ⟨c, rest, hcons⟩ := List.exists_cons_of_ne_nil (Identifier.isTail_of_isUsable h).1
  have htext : (name ++ ".rs").toList = c :: (rest ++ ['.', 'r', 's']) := by
    rw [String.toList_append, hcons]
    rfl
  have hdot : c ≠ '.' := by
    rintro rfl
    have hmem : '.' ∈ name.toList := by simp [hcons]
    exact Identifier.not_mem_of_isUsable h rfl hmem
  constructor
  case ne_empty =>
    intro heq
    rw [heq] at htext
    cases htext
  case ne_dot =>
    intro heq
    rw [heq] at htext
    exact hdot (List.cons.inj htext).1.symm
  case ne_dots =>
    intro heq
    rw [heq] at htext
    exact hdot (List.cons.inj htext).1.symm
  case no_slash =>
    rw [String.toList_append, List.mem_append]
    rintro (hname | hsuffix)
    · exact Identifier.not_mem_of_isUsable h rfl hname
    · exact absurd hsuffix (by decide)

/-- Modules with different usable names have different files. -/
theorem place_modulePath_injective (job : Job) (tree : FileTree) {name other : String}
    (hname : Identifier.isUsable name = true) (hother : Identifier.isUsable other = true)
    (h : tree.place (job.modulePath name) = tree.place (job.modulePath other)) : name = other := by
  simp only [FileTree.place, Job.modulePath,
    FileTree.placeFrom_join _ _ (isFileName_of_isUsable hname),
    FileTree.placeFrom_join _ _ (isFileName_of_isUsable hother)] at h
  have hlast := (List.append_inj_right' h rfl)
  exact (String.append_left_inj ".rs").1 (List.cons.inj hlast).1

end Carver
