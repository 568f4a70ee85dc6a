import Carver.Module.Declarations
import Carver.Proofs.Bytes
import Carver.Proofs.Pieces

/-!
# Lines of declarations

Declarations come into a text as one block at an end of one of its lines. The anchor chooses the
place (`Module.Position`): below the line on which it occurs first, at the end if that line is the
last one and has no line feed, and at the top if there is no anchor to be found. In each case the
line feeds of the block keep its lines apart from those of the text, so the lines of the text stay
as they are, with the lines of the block between two of them
(`Module.insertDeclarations_inserted`).
-/

namespace Carver

namespace Text

/-! ## First occurrences -/

/-- The text `before` leads up to the first occurrence of the word, with which `found` begins. -/
structure FirstOccurs (word text before found : Text) : Prop where
  text_eq : text = before ++ found
  isPrefix : word <+: found
  size_le : ∀ front rest, text = front ++ rest → word <+: rest → size before ≤ size front

theorem firstOccurs_of_splitAtWord {word text before found : Text}
    (h : splitAtWord word text = some (before, found)) : FirstOccurs word text before found := by
  induction text generalizing before with
  | nil =>
    rw [splitAtWord] at h
    split at h
    · rename_i hempty
      cases h
      rw [List.isEmpty_iff] at hempty
      exact ⟨rfl, by simp [hempty], fun _ _ _ _ => Nat.zero_le _⟩
    · cases h
  | cons c rest ih =>
    rw [splitAtWord] at h
    split at h
    · rename_i hbegins
      cases h
      exact ⟨rfl, List.isPrefixOf_iff_prefix.1 hbegins, fun _ _ _ _ => Nat.zero_le _⟩
    · rename_i hbegins
      obtain ⟨⟨before', found'⟩, hrest, heq⟩ := Option.map_eq_some_iff.1 h
      cases heq
      have hfirst := ih hrest
      refine ⟨by rw [hfirst.text_eq, List.cons_append], hfirst.isPrefix,
        fun front tail htext hword => ?_⟩
      -- No occurrence begins at `c`, so every other one begins in the rest.
      cases front with
      | nil =>
        rw [List.nil_append] at htext
        rw [← htext, ← List.isPrefixOf_iff_prefix] at hword
        exact absurd hword hbegins
      | cons d front =>
        obtain ⟨rfl, hrest⟩ := List.cons.inj htext
        exact Nat.add_le_add_left (hfirst.size_le front tail hrest hword) _

theorem splitAtWord_eq_none_iff {word text : Text} :
    splitAtWord word text = none ↔ ¬ word <:+: text := by
  induction text with
  | nil => simp [splitAtWord]
  | cons c rest ih =>
    rw [splitAtWord, List.infix_cons_iff, not_or, ← ih, ← List.isPrefixOf_iff_prefix]
    split
    · rename_i hbegins
      simp [hbegins]
    · rename_i hbegins
      simp [hbegins]

/-- The first line feed ends the first line. -/
theorem splitLine_cases (text : Text) :
    splitLine text = none ∧ '\n' ∉ text ∨
      ∃ line after, splitLine text = some (line ++ ['\n'], after) ∧
        text = line ++ '\n' :: after ∧ '\n' ∉ line := by
  induction text with
  | nil => exact .inl ⟨rfl, List.not_mem_nil⟩
  | cons c rest ih =>
    rw [splitLine]
    by_cases hc : c = '\n'
    · rw [if_pos hc]
      exact .inr ⟨[], rest, rfl, by rw [hc]; rfl, List.not_mem_nil⟩
    · rw [if_neg hc]
      rcases ih with ⟨hnone, hrest⟩ | ⟨line, after, hsome, hrest, hline⟩
      · refine .inl ⟨by rw [hnone]; rfl, ?_⟩
        rw [List.mem_cons, not_or]
        exact ⟨Ne.symm hc, hrest⟩
      · refine .inr ⟨c :: line, after, by rw [hsome]; rfl, by rw [hrest]; rfl, ?_⟩
        rw [List.mem_cons, not_or]
        exact ⟨Ne.symm hc, hline⟩

/-! ## Lines -/

/-- The lines of a text; the last one is empty if the text ends with a line feed. -/
def lines (text : Text) : List Text :=
  piecesBy '\n' text

@[simp] theorem lines_nil : lines [] = [[]] :=
  rfl

/-- A line feed ends one line and begins the next. -/
@[simp] theorem lines_newline (a b : Text) : lines (a ++ '\n' :: b) = lines a ++ lines b :=
  piecesBy_append_cons '\n' a b

@[simp] theorem lines_cons_newline (text : Text) : lines ('\n' :: text) = [] :: lines text :=
  lines_newline [] text

/-- The lines that are not blank. -/
def filled (lines : List Text) : List Text :=
  lines.filter (!·.isEmpty)

theorem filled_append (above below : List Text) :
    filled (above ++ below) = filled above ++ filled below :=
  List.filter_append above below

theorem filled_eq_self {texts : List Text} (h : ∀ text ∈ texts, text ≠ []) : filled texts = texts :=
  List.filter_eq_self.2 fun text htext => by simpa using h text htext

end Text

open Text (FirstOccurs lines filled filled_append filled_eq_self)

namespace Module

/-! ## The block -/

/-- The lines that declare the modules, a blank line, and the lines that import them. -/
def block (modules : List String) : Text :=
  declarations modules ++ ['\n', '\n'] ++ globImports modules

/-- One declaring line for each module, then one importing line for each. -/
def declaringLines (modules : List String) : List Text :=
  modules.map (fun name => (declaration name).toList)
    ++ modules.map (fun name => (globImport name).toList)

theorem toList_declaration (name : String) :
    (declaration name).toList = "mod ".toList ++ name.toList ++ ";".toList := by
  simp [declaration, toString]

theorem toList_globImport (name : String) :
    (globImport name).toList = "use ".toList ++ name.toList ++ "::*;".toList := by
  simp [globImport, toString]

theorem lines_joinLines {texts : List String} (hne : texts ≠ [])
    (h : ∀ text ∈ texts, '\n' ∉ text.toList) :
    lines (joinLines texts) = texts.map String.toList :=
  Text.piecesBy_intercalate (by simpa using hne) (by simpa using h)

variable {modules : List String}

theorem lines_block (hne : modules ≠ []) (h : ∀ name ∈ modules, '\n' ∉ name.toList) :
    lines (block modules) = modules.map (fun name => (declaration name).toList) ++ [[]]
      ++ modules.map (fun name => (globImport name).toList) := by
  have hdeclarations : lines (declarations modules)
      = modules.map fun name => (declaration name).toList := by
    rw [declarations, lines_joinLines (by simpa using hne), List.map_map]
    · rfl
    · refine List.forall_mem_map.2 fun name hname => ?_
      simpa [toList_declaration] using h name hname
  have himports : lines (globImports modules)
      = modules.map fun name => (globImport name).toList := by
    rw [globImports, lines_joinLines (by simpa using hne), List.map_map]
    · rfl
    · refine List.forall_mem_map.2 fun name hname => ?_
      simpa [toList_globImport] using h name hname
  simp [block, hdeclarations, himports]

/-- Blank lines around the block are no declarations. -/
theorem filled_lines_block (hne : modules ≠ []) (h : ∀ name ∈ modules, '\n' ∉ name.toList)
    {above below : List Text} (habove : filled above = []) (hbelow : filled below = []) :
    filled (above ++ lines (block modules) ++ below) = declaringLines modules := by
  have hdeclarations : ∀ line ∈ modules.map (fun name => (declaration name).toList), line ≠ [] :=
    List.forall_mem_map.2 fun name _ => by simp [toList_declaration]
  have himports : ∀ line ∈ modules.map (fun name => (globImport name).toList), line ≠ [] :=
    List.forall_mem_map.2 fun name _ => by simp [toList_globImport]
  have hblank : filled [[]] = [] := rfl
  rw [lines_block hne h]
  simp only [filled_append, habove, hbelow, hblank, filled_eq_self hdeclarations,
    filled_eq_self himports, List.nil_append, List.append_nil, declaringLines]

/-! ## Where the block goes -/

/-- The place that the anchor chooses: `front` is what stands above the inserted lines. -/
inductive Position (text : Text) (anchor : String) (front inserted : Text) : Prop
  | below {before line after : Text} (hne : anchor ≠ "")
    (hfirst : FirstOccurs anchor.toList text before (line ++ '\n' :: after)) (hline : '\n' ∉ line)
    (hfront : front = before ++ line ++ ['\n'])
  | atEnd {before found : Text} (hne : anchor ≠ "")
    (hfirst : FirstOccurs anchor.toList text before found) (hfound : '\n' ∉ found)
    (hfront : front = text) (hinserted : ['\n', '\n'] <+: inserted)
  | atTop (habsent : anchor = "" ∨ ¬ anchor.toList <:+: text) (hfront : front = [])
    (hinserted : ['\n', '\n'] <:+ inserted)

theorem placement_cases (text : Text) (anchor : String) :
    placement text anchor = .atTop ∧ (anchor = "" ∨ ¬ anchor.toList <:+: text) ∨
    anchor ≠ "" ∧ ∃ before found, FirstOccurs anchor.toList text before found ∧
      (placement text anchor = .atEnd ∧ '\n' ∉ found ∨
        ∃ line after, placement text anchor = .below (before ++ (line ++ ['\n'])) after ∧
          found = line ++ '\n' :: after ∧ '\n' ∉ line) := by
  by_cases hempty : anchor = ""
  · exact .inl ⟨by simp [placement, hempty], .inl hempty⟩
  · have hisEmpty : anchor.toList.isEmpty = false := by simpa using hempty
    cases hsplit : Text.splitAtWord anchor.toList text with
    | none =>
      refine .inl ⟨by simp [placement, hsplit], .inr (Text.splitAtWord_eq_none_iff.1 hsplit)⟩
    | some parts =>
      obtain ⟨before, found⟩ := parts
      refine .inr ⟨hempty, before, found, Text.firstOccurs_of_splitAtWord hsplit, ?_⟩
      rw [placement, hisEmpty, if_neg Bool.false_ne_true]
      simp only [hsplit]
      rcases Text.splitLine_cases found with ⟨hnone, hfound⟩ | ⟨line, after, hsome, hfound, hline⟩
      · exact .inl ⟨by simp only [hnone], hfound⟩
      · exact .inr ⟨line, after, by simp only [hsome], hfound, hline⟩

theorem insertDeclarations_eq (hne : modules ≠ []) (text : Text) (anchor : String) :
    insertDeclarations text anchor modules =
      match placement text anchor with
      | .below before after => before ++ ['\n'] ++ block modules ++ ['\n'] ++ after
      | .atEnd => text ++ ['\n', '\n'] ++ block modules ++ ['\n']
      | .atTop => block modules ++ ['\n', '\n'] ++ text := by
  rw [insertDeclarations, if_neg (by simpa using hne)]
  rfl

/-- What comes of a text into which declarations are inserted between `front` and `back`. -/
structure Inserted (text : Text) (anchor : String) (modules : List String)
    (result front inserted back : Text) : Prop where
  result_eq : result = front ++ inserted ++ back
  text_eq : text = front ++ back
  erase?_eq : Text.erase? result ⟨Text.size front, Text.size (front ++ inserted)⟩ = some text
  position : Position text anchor front inserted
  /-- Every inserted line that is not blank declares or imports a module. -/
  filled_eq : (∀ name ∈ modules, '\n' ∉ name.toList) →
    filled (lines inserted) = declaringLines modules
  /-- The lines of the text stay whole, and so do the lines that come between them. -/
  lines_eq : ∃ above fresh below, lines text = above ++ below ∧
    lines result = above ++ fresh ++ below ∧
    ((∀ name ∈ modules, '\n' ∉ name.toList) → filled fresh = declaringLines modules)

theorem inserted_atTop (hne : modules ≠ []) {text : Text} {anchor : String}
    (habsent : anchor = "" ∨ ¬ anchor.toList <:+: text) :
    Inserted text anchor modules (block modules ++ ['\n', '\n'] ++ text) []
      (block modules ++ ['\n', '\n']) text where
  result_eq := rfl
  text_eq := rfl
  erase?_eq := Text.erase?_append [] (block modules ++ ['\n', '\n']) text
  position := .atTop habsent rfl (List.suffix_append _ _)
  filled_eq hnames := by
    have hlines : lines (block modules ++ ['\n', '\n'])
        = [] ++ lines (block modules) ++ [[], []] := by simp
    rw [hlines, filled_lines_block hne hnames rfl rfl]
  lines_eq := ⟨[], [] ++ lines (block modules) ++ [[]], lines text, rfl, by simp,
    fun hnames => filled_lines_block hne hnames rfl rfl⟩

theorem inserted_atEnd (hne : modules ≠ []) {text before found : Text} {anchor : String}
    (hanchor : anchor ≠ "") (hfirst : FirstOccurs anchor.toList text before found)
    (hfound : '\n' ∉ found) :
    Inserted text anchor modules (text ++ ['\n', '\n'] ++ block modules ++ ['\n']) text
      (['\n', '\n'] ++ block modules ++ ['\n']) [] where
  result_eq := by simp
  text_eq := (List.append_nil text).symm
  erase?_eq := by
    have herase := Text.erase?_append text (['\n', '\n'] ++ block modules ++ ['\n']) []
    simpa using herase
  position := .atEnd hanchor hfirst hfound rfl (by simp)
  filled_eq hnames := by
    have hlines : lines (['\n', '\n'] ++ block modules ++ ['\n'])
        = [[], []] ++ lines (block modules) ++ [[]] := by simp
    rw [hlines, filled_lines_block hne hnames rfl rfl]
  lines_eq := ⟨lines text, [[]] ++ lines (block modules) ++ [[]], [], by simp, by simp,
    fun hnames => filled_lines_block hne hnames rfl rfl⟩

theorem inserted_below (hne : modules ≠ []) {text before line after : Text} {anchor : String}
    (hanchor : anchor ≠ "")
    (hfirst : FirstOccurs anchor.toList text before (line ++ '\n' :: after))
    (hline : '\n' ∉ line) :
    Inserted text anchor modules
      (before ++ (line ++ ['\n']) ++ ['\n'] ++ block modules ++ ['\n'] ++ after)
      (before ++ line ++ ['\n']) (['\n'] ++ block modules ++ ['\n']) after where
  result_eq := by simp
  text_eq := by simp [hfirst.text_eq]
  erase?_eq := by
    have herase := Text.erase?_append (before ++ line ++ ['\n'])
      (['\n'] ++ block modules ++ ['\n']) after
    simpa [hfirst.text_eq] using herase
  position := .below hanchor hfirst hline rfl
  filled_eq hnames := by
    have hlines : lines (['\n'] ++ block modules ++ ['\n'])
        = [[]] ++ lines (block modules) ++ [[]] := by simp
    rw [hlines, filled_lines_block hne hnames rfl rfl]
  lines_eq := by
    refine ⟨lines (before ++ line), [[]] ++ lines (block modules) ++ [], lines after, ?_, ?_,
      fun hnames => filled_lines_block hne hnames rfl rfl⟩
    · rw [hfirst.text_eq, ← List.append_assoc, Text.lines_newline]
    · have hshape : before ++ (line ++ ['\n']) ++ ['\n'] ++ block modules ++ ['\n'] ++ after
          = before ++ line ++ '\n' :: '\n' :: (block modules ++ '\n' :: after) := by simp
      rw [hshape, Text.lines_newline]
      simp

/-- Without modules the text stays as it is. With modules, one block of lines comes into it, where
the anchor says, and the lines of the text stay as they are. -/
theorem insertDeclarations_inserted (text : Text) (anchor : String) (modules : List String) :
    insertDeclarations text anchor [] = text ∧
    (modules ≠ [] → ∃ front inserted back, Inserted text anchor modules
      (insertDeclarations text anchor modules) front inserted back) := by
  refine ⟨rfl, fun hne => ?_⟩
  rw [insertDeclarations_eq hne]
  rcases placement_cases text anchor with ⟨hplace, habsent⟩ |
    ⟨hanchor, before, found, hfirst, ⟨hplace, hfound⟩ | ⟨line, after, hplace, rfl, hline⟩⟩
  · simp only [hplace]
    exact ⟨_, _, _, inserted_atTop hne habsent⟩
  · simp only [hplace]
    exact ⟨_, _, _, inserted_atEnd hne hanchor hfirst hfound⟩
  · simp only [hplace]
    exact ⟨_, _, _, inserted_below hne hanchor hfirst hline⟩

end Module

end Carver
