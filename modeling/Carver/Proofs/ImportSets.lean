import Carver.Module.Content
import Carver.Proofs.Bytes
import Mathlib.Data.List.Sort

/-!
# Import lines as a set

The import lines of a module are the one strictly ascending list of the lines that are left of the
common lines, those of the module and the extra ones when white space is taken off their ends and
blank ones are dropped (`Module.isImportSet_collect`, `IsImportSet.unique`). So they depend on the
lines as a set: two lists give the same import lines exactly if one can be rearranged into the other
(`Module.collect_eq_iff`), since every list can be rearranged into its import lines.
-/

namespace Carver

namespace Text

/-! ## White space at the ends -/

/-- What is left of `raw` without the white space at its ends is `line`. -/
structure Trimmed (raw line : Text) : Prop where
  exists_ends : ∃ front back, raw = front ++ line ++ back ∧
    (∀ c ∈ front, isBlank c = true) ∧ ∀ c ∈ back, isBlank c = true
  head : ∀ c ∈ line.head?, isBlank c = false
  last : ∀ c ∈ line.getLast?, isBlank c = false

theorem isBlank_of_head?_dropWhile (text : Text) :
    ∀ c ∈ (text.dropWhile isBlank).head?, isBlank c = false := by
  intro c hc
  have hhead := List.head?_dropWhile_not isBlank text
  rw [Option.mem_def.1 hc] at hhead
  exact hhead

theorem trimmed_trim (raw : Text) : Trimmed raw (trim raw) := by
  have hfront : ∀ c ∈ raw.takeWhile isBlank, isBlank c = true := fun c hc =>
    List.all_eq_true.1 List.all_takeWhile c hc
  have hback : ∀ c ∈ ((raw.dropWhile isBlank).reverse.takeWhile isBlank).reverse,
      isBlank c = true := fun c hc =>
    List.all_eq_true.1 List.all_takeWhile c (List.mem_reverse.1 hc)
  have hrest : raw.dropWhile isBlank
      = trim raw ++ ((raw.dropWhile isBlank).reverse.takeWhile isBlank).reverse := by
    rw [trim, trimBy, trimEndBy, ← List.reverse_append, List.takeWhile_append_dropWhile,
      List.reverse_reverse]
  refine ⟨⟨_, _, ?_, hfront, hback⟩, fun c hc => ?_, fun c hc => ?_⟩
  · rw [List.append_assoc, ← hrest, List.takeWhile_append_dropWhile]
  · refine isBlank_of_head?_dropWhile raw c ?_
    rw [hrest, List.head?_append, Option.mem_def.1 hc]
    rfl
  · rw [trim, trimBy, trimEndBy, List.getLast?_reverse] at hc
    exact isBlank_of_head?_dropWhile _ c hc

/-- There is only one way to take the white space off. -/
theorem Trimmed.eq {raw line : Text} (h : Trimmed raw line) : trim raw = line := by
  obtain ⟨front, back, rfl, hfront, hback⟩ := h.exists_ends
  rw [trim, trimBy, trimEndBy, List.append_assoc, List.dropWhile_append_of_pos hfront]
  cases hline : line with
  | nil =>
    have hdropped : (back ++ []).dropWhile isBlank = [].dropWhile isBlank :=
      List.dropWhile_append_of_pos hback
    rw [List.append_nil] at hdropped
    rw [List.nil_append, hdropped]
    rfl
  | cons c rest =>
    have hc : isBlank c = false := h.head c (by simp [hline])
    have hlast : ∀ d ∈ line.reverse.head?, isBlank d = false := by
      rw [List.head?_reverse]
      exact h.last
    rw [List.cons_append, List.dropWhile_cons_of_neg (by simp [hc]), ← List.cons_append, ← hline,
      List.reverse_append, List.dropWhile_append_of_pos fun d hd => hback d (List.mem_reverse.1 hd)]
    cases hreverse : line.reverse with
    | nil => simp [hline] at hreverse
    | cons d others =>
      rw [hreverse] at hlast
      rw [List.dropWhile_cons_of_neg (by simp [hlast d rfl]), ← hreverse, List.reverse_reverse]

theorem trim_eq_iff {raw line : Text} : trim raw = line ↔ Trimmed raw line :=
  ⟨fun h => h ▸ trimmed_trim raw, Trimmed.eq⟩

theorem trim_pad {front back : Text} (hfront : ∀ c ∈ front, isBlank c = true)
    (hback : ∀ c ∈ back, isBlank c = true) (text : Text) :
    trim (front ++ text ++ back) = trim text := by
  obtain ⟨⟨before, after, htext, hbefore, hafter⟩, hhead, hlast⟩ := trimmed_trim text
  refine Trimmed.eq ⟨⟨front ++ before, after ++ back, ?_, ?_, ?_⟩, hhead, hlast⟩
  · conv_lhs => rw [htext]
    simp only [List.append_assoc]
  · exact List.forall_mem_append.2 ⟨hfront, hbefore⟩
  · exact List.forall_mem_append.2 ⟨hafter, hback⟩

theorem trim_blank {text : Text} (h : ∀ c ∈ text, isBlank c = true) : trim text = [] :=
  Trimmed.eq ⟨⟨text, [], by simp, h, by simp⟩, by simp, by simp⟩

end Text

namespace Module

open Text (Trimmed isBlank)

/-! ## Ascending sets of lines -/

/-- The code points of a line, by which lines are ordered. -/
def codePoints (line : String) : List Nat :=
  line.toList.map Char.toNat

theorem codePoints_lt {line other : String} (h : line < other) :
    codePoints line < codePoints other :=
  List.map_lt (fun _ _ hlt => hlt) (String.lt_iff.1 h)

theorem codePoints_injective : Function.Injective codePoints := fun _ _ h =>
  String.toList_inj.1 (List.map_injective_iff.2 (fun _ _ => Char.toNat_inj.1) h)

theorem mem_insertLine {line new : String} {lines : List String} :
    line ∈ insertLine new lines ↔ line = new ∨ line ∈ lines := by
  induction lines with
  | nil => simp [insertLine]
  | cons first rest ih =>
    rw [insertLine]
    split
    · exact List.mem_cons
    · split
      · rename_i heq
        rw [heq, List.mem_cons, ← or_assoc, or_self]
      · rw [List.mem_cons, ih, List.mem_cons, or_left_comm]

theorem pairwise_insertLine {lines : List String} (h : lines.Pairwise (· < ·)) (new : String) :
    (insertLine new lines).Pairwise (· < ·) := by
  induction lines with
  | nil => exact List.pairwise_singleton _ _
  | cons first rest ih =>
    rw [List.pairwise_cons] at h
    rw [insertLine]
    split
    · rename_i hbefore
      refine List.pairwise_cons.2 ⟨List.forall_mem_cons.2 ⟨hbefore, fun line hline => ?_⟩,
        List.pairwise_cons.2 h⟩
      exact String.lt_trans hbefore (h.1 line hline)
    · split
      · exact List.pairwise_cons.2 h
      · rename_i hbefore hne
        refine List.pairwise_cons.2 ⟨fun line hline => ?_, ih h.2⟩
        rcases mem_insertLine.1 hline with rfl | hline
        · exact ((Std.lt_trichotomy line first).resolve_left hbefore).resolve_left hne
        · exact h.1 line hline

theorem mem_foldr_insertLine {line : String} {lines : List String} :
    line ∈ lines.foldr insertLine [] ↔ line ∈ lines := by
  induction lines with
  | nil => exact .rfl
  | cons first rest ih => rw [List.foldr_cons, mem_insertLine, ih, List.mem_cons]

theorem pairwise_foldr_insertLine (lines : List String) :
    (lines.foldr insertLine []).Pairwise (· < ·) := by
  induction lines with
  | nil => exact .nil
  | cons first rest ih => exact pairwise_insertLine ih first

/-! ## Import lines -/

/-- The lines that the import lines of a module are made from. -/
def rawLines (name : String) (table : ImportTable) (extra : List String) : List String :=
  table.common ++ table.linesFor name ++ extra

/-- The import lines that are made from these lines. -/
def collect (raws : List String) : List String :=
  ((raws.map trimLine).filter (· != "")).foldr insertLine []

/-- The lines without white space at their ends, blank ones apart, in strictly ascending order. -/
structure IsImportSet (raws lines : List String) : Prop where
  ascending : (lines.map codePoints).Pairwise (· < ·)
  mem_iff : ∀ line, line ∈ lines ↔ line ≠ "" ∧ ∃ raw ∈ raws, Trimmed raw.toList line.toList

theorem trimLine_eq_iff {raw line : String} :
    trimLine raw = line ↔ Trimmed raw.toList line.toList := by
  rw [← Text.trim_eq_iff, trimLine, ← String.toList_inj, String.toList_ofList]

theorem mem_collect_iff {raws : List String} {line : String} :
    line ∈ collect raws ↔ line ≠ "" ∧ ∃ raw ∈ raws, trimLine raw = line := by
  rw [collect, mem_foldr_insertLine, List.mem_filter, List.mem_map, bne_iff_ne, and_comm]

theorem isImportSet_collect (raws : List String) : IsImportSet raws (collect raws) where
  ascending := List.pairwise_map.2 ((pairwise_foldr_insertLine _).imp codePoints_lt)
  mem_iff line := by simp only [mem_collect_iff, trimLine_eq_iff]

theorem IsImportSet.unique {raws lines others : List String} (h : IsImportSet raws lines)
    (hothers : IsImportSet raws others) : lines = others := by
  refine List.map_injective_iff.2 codePoints_injective ?_
  refine h.ascending.eq_of_mem_iff hothers.ascending fun points => ?_
  simp only [List.mem_map, h.mem_iff, hothers.mem_iff]

theorem collect_congr {raws others : List String}
    (h : ∀ line, line ≠ "" → ((∃ raw ∈ raws, trimLine raw = line)
      ↔ ∃ raw ∈ others, trimLine raw = line)) : collect raws = collect others := by
  refine (isImportSet_collect raws).unique ⟨(isImportSet_collect others).ascending, fun line => ?_⟩
  simp only [mem_collect_iff, ← trimLine_eq_iff]
  exact and_congr_right fun hne => (h line hne).symm

theorem collect_eq_of_mem_iff {raws others : List String}
    (h : ∀ raw, raw ∈ raws ↔ raw ∈ others) : collect raws = collect others :=
  collect_congr fun line _ => by simp only [h]

/-! ## Rearranging lines -/

/-- One list comes from the other by permuting and repeating lines, by white space at the ends of
lines and by blank lines. -/
inductive Rearranged : List String → List String → Prop
  | permuted {raws others : List String} (h : raws.Perm others) : Rearranged raws others
  | repeated {line : String} {raws : List String} (h : line ∈ raws) :
    Rearranged raws (line :: raws)
  | padded {line wide : String} {front back : Text} {raws : List String}
    (hfront : ∀ c ∈ front, isBlank c = true) (hback : ∀ c ∈ back, isBlank c = true)
    (h : wide.toList = front ++ line.toList ++ back) : Rearranged (line :: raws) (wide :: raws)
  | blank {line : String} {raws : List String} (h : ∀ c ∈ line.toList, isBlank c = true) :
    Rearranged raws (line :: raws)
  | symm {raws others : List String} (h : Rearranged raws others) : Rearranged others raws
  | trans {raws others more : List String} (h : Rearranged raws others)
    (hmore : Rearranged others more) : Rearranged raws more

namespace Rearranged

variable {raws others : List String}

theorem refl (raws : List String) : Rearranged raws raws :=
  .permuted (.refl raws)

theorem cons (h : Rearranged raws others) (line : String) :
    Rearranged (line :: raws) (line :: others) := by
  -- The rules change the first line only: a swap takes the new line out of their way.
  induction h with
  | permuted h => exact .permuted (h.cons line)
  | repeated h => exact .trans (.repeated (List.mem_cons_of_mem _ h)) (.permuted (.swap ..))
  | padded hfront hback h =>
    exact .trans (.permuted (.swap ..)) (.trans (.padded hfront hback h) (.permuted (.swap ..)))
  | blank h => exact .trans (.blank h) (.permuted (.swap ..))
  | symm _ ih => exact ih.symm
  | trans _ _ ih ihmore => exact ih.trans ihmore

theorem append_left (h : Rearranged raws others) (front : List String) :
    Rearranged (front ++ raws) (front ++ others) := by
  induction front with
  | nil => exact h
  | cons line front ih => exact ih.cons line

/-- Adding a line to an ascending list is a rearrangement, whether the line is new or not. -/
theorem insertLine (line : String) (lines : List String) :
    Rearranged (line :: lines) (Module.insertLine line lines) := by
  induction lines with
  | nil => exact .refl _
  | cons first rest ih =>
    rw [Module.insertLine]
    split
    · exact .refl _
    · split
      · rename_i heq
        exact .symm (.repeated (by simp [heq]))
      · exact .trans (.permuted (.swap ..)) (ih.cons first)

theorem trimLine (raw : String) (raws : List String) :
    Rearranged (raw :: raws) (Module.trimLine raw :: raws) := by
  obtain ⟨front, back, hraw, hfront, hback⟩ :=
    (trimLine_eq_iff.1 (rfl : Module.trimLine raw = _)).exists_ends
  exact .symm (.padded hfront hback hraw)

/-- Every list can be rearranged into its import lines. -/
theorem collect (raws : List String) : Rearranged raws (Module.collect raws) := by
  induction raws with
  | nil => exact .refl []
  | cons raw raws ih =>
    refine .trans (.trimLine raw raws) (.trans (ih.cons _) ?_)
    by_cases hempty : Module.trimLine raw = ""
    · have hcollect : Module.collect (raw :: raws) = Module.collect raws := by
        simp [Module.collect, hempty]
      rw [hcollect]
      exact .symm (.blank (by simp [hempty]))
    · have hcollect : Module.collect (raw :: raws)
          = Module.insertLine (Module.trimLine raw) (Module.collect raws) := by
        simp [Module.collect, hempty]
      rw [hcollect]
      exact .insertLine _ _

theorem collect_eq (h : Rearranged raws others) : Module.collect raws = Module.collect others := by
  induction h with
  | permuted h => exact collect_eq_of_mem_iff fun raw => h.mem_iff
  | repeated hmem =>
    refine collect_eq_of_mem_iff fun raw => ?_
    rw [List.mem_cons]
    exact ⟨.inr, fun h => h.elim (fun heq => heq ▸ hmem) id⟩
  | @padded line wide front back raws hfront hback hwide =>
    have htrim : Module.trimLine wide = Module.trimLine line := by
      rw [Module.trimLine, hwide, Text.trim_pad hfront hback, ← Module.trimLine]
    exact collect_congr fun other _ => by simp [htrim]
  | @blank line raws hblank =>
    have htrim : Module.trimLine line = "" := by
      rw [Module.trimLine, Text.trim_blank hblank]
    exact collect_congr fun other hne => by simp [htrim, hne.symm]
  | symm _ ih => exact ih.symm
  | trans _ _ ih ihmore => exact ih.trans ihmore

end Rearranged

theorem collect_eq_iff {raws others : List String} :
    collect raws = collect others ↔ Rearranged raws others := by
  refine ⟨fun h => ?_, Rearranged.collect_eq⟩
  refine .trans (.collect raws) ?_
  rw [h]
  exact .symm (.collect others)

/-- Lines may be collected before they come to other lines. -/
theorem collect_append_collect (front raws : List String) :
    collect (front ++ collect raws) = collect (front ++ raws) :=
  ((Rearranged.collect raws).append_left front).symm.collect_eq

variable (name : String) (table : ImportTable) (extra : List String)

/-- Import lines that come back in place of the extra lines change nothing. -/
theorem importLines_importLines :
    importLines name table (importLines name table extra) = importLines name table extra := by
  refine (collect_append_collect _ (rawLines name table extra)).trans ?_
  refine collect_eq_of_mem_iff fun raw => ?_
  simp only [rawLines, List.mem_append]
  exact ⟨fun h => h.elim .inl id, .inr⟩

/-- Import lines that come back next to the extra lines change nothing. -/
theorem importLines_append_importLines :
    importLines name table (extra ++ importLines name table extra)
      = importLines name table extra := by
  have hraws : rawLines name table (extra ++ importLines name table extra)
      = rawLines name table extra ++ collect (rawLines name table extra) :=
    (List.append_assoc _ _ _).symm
  calc importLines name table (extra ++ importLines name table extra)
      = collect (rawLines name table extra ++ collect (rawLines name table extra)) :=
        congrArg collect hraws
    _ = collect (rawLines name table extra ++ rawLines name table extra) :=
        collect_append_collect _ _
    _ = collect (rawLines name table extra) :=
        collect_eq_of_mem_iff fun raw => by rw [List.mem_append, or_self]

/-! ## Module files -/

/-- What stands above the items: the header, a blank line, the import lines and a line feed. -/
def frontMatter (name : String) (lines : List String) : Text :=
  ("// " ++ name ++ ".rs - Module for " ++ name).toList ++ ['\n', '\n']
    ++ lines.flatMap (fun line => line.toList ++ ['\n']) ++ ['\n']

/-- The items come one behind the other below the front matter, each with two line feeds behind it,
and each is found again where the items before it end. -/
structure Layout (name : String) (lines : List String) (items : List Text) (text : Text) :
    Prop where
  text_eq : text = frontMatter name lines ++ items.flatMap (· ++ ['\n', '\n'])
  slice_eq : ∀ before item after, items = before ++ item :: after →
    ∃ start, start = Text.size (frontMatter name lines ++ before.flatMap (· ++ ['\n', '\n'])) ∧
      Text.slice text ⟨start, start + Text.size item⟩ = item

theorem layout_content (items : List Text) :
    Layout name (importLines name table extra) items (content name items table extra) := by
  have htext : content name items table extra
      = frontMatter name (importLines name table extra) ++ items.flatMap (· ++ ['\n', '\n']) := by
    simp [content, frontMatter, header, toString]
  refine ⟨htext, ?_⟩
  rintro before item after rfl
  refine ⟨_, rfl, ?_⟩
  rw [htext, List.flatMap_append, List.flatMap_cons, ← Text.size_append, ← List.append_assoc,
    List.append_assoc item, ← List.append_assoc _ item, Text.slice_append]

/-- The import lines are a set in its one ascending order. The text of a module file therefore does
not change when the lines are rearranged, within a list or between the three lists, nor when those
of the file are given once more as extra ones. -/
theorem importLines_canonical (name : String) (table : ImportTable) (extra : List String) :
    (∀ lines, IsImportSet (rawLines name table extra) lines
      ↔ lines = importLines name table extra) ∧
    (∀ (changed : ImportTable) (more : List String),
      importLines name table extra = importLines name changed more
        ↔ Rearranged (rawLines name table extra) (rawLines name changed more)) ∧
    (∀ (items : List Text) (changed : ImportTable) (more : List String),
      Rearranged (rawLines name table extra) (rawLines name changed more) →
        content name items table extra = content name items changed more) ∧
    (∀ items, content name items table (importLines name table extra)
        = content name items table extra ∧
      content name items table (extra ++ importLines name table extra)
        = content name items table extra) ∧
    ∀ items, Layout name (importLines name table extra) items
      (content name items table extra) := by
  have hcontent : ∀ (items : List Text) (changed : ImportTable) (more : List String),
      importLines name changed more = importLines name table extra →
        content name items changed more = content name items table extra := by
    intro items changed more h
    rw [content, content, h]
  refine ⟨fun lines => ⟨fun h => h.unique (isImportSet_collect _), ?_⟩,
    fun changed more => collect_eq_iff,
    fun items changed more h => (hcontent items changed more h.symm.collect_eq).symm,
    fun items => ⟨hcontent items table _ (importLines_importLines name table extra),
      hcontent items table _ (importLines_append_importLines name table extra)⟩,
    fun items => layout_content name table extra items⟩
  rintro rfl
  exact isImportSet_collect _

/-- White space is taken off before lines are compared. -/
example : importLines "m" ⟨["use b;", " use a;"], [("m", ["use a;\t"])]⟩ ["", "use a;"]
    = ["use a;", "use b;"] := by decide +kernel

end Module

end Carver
