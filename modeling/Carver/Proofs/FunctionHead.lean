import Carver.Definition.Shape
import Carver.Proofs.FunctionSource
import Carver.Proofs.Spelling

/-!
# Where functions are recognised

A match of the shape of a function is its front, the keyword, the name and what follows
(`exists_parts_of_spells`). In a well-formed source the keyword leads to the function of that name,
and the front of the match is then the front of the function and no more (`eq_nil_of_front`): lines
do not reach over the blank line above the function, and modifiers end in a word, which neither a
gap nor an attribute line does. A parenthesis of `pub` may reach further, which is why sources are
asked to close it.
-/

namespace Carver

open Pattern

namespace Shape

/-! ## Words of the front -/

theorem not_mem_of_indent {word : Text} (h : indent.Spells word) : '\n' ∉ word := fun hmem =>
  absurd (h _ hmem) (by decide)

theorem not_mem_of_upTo {c : Char} {word : Text} (h : (upTo c).Spells word) : c ∉ word :=
  fun hmem => absurd (h _ hmem) (by simp)

theorem spells_indent_nil : indent.Spells [] := by
  simp [indent, Spells]

theorem spells_space_nil : space.Spells [] := by
  simp [space, Spells]

theorem spells_space_one : space.Spells [' '] :=
  List.forall_mem_singleton.2 rfl

theorem spells_upTo {c : Char} {word : Text} (h : c ∉ word) : (upTo c).Spells word := by
  intro z hz
  rw [bne_iff_ne]
  rintro rfl
  exact h hz

theorem line_of_docLine {word : Text} (h : docLine.Spells word) :
    ∃ body, word = body ++ ['\n'] ∧ body ≠ [] ∧ '\n' ∉ body := by
  simp only [docLine, spells_all_cons, spells_all_nil, spells_literal, spells_char] at h
  obtain ⟨blanks, _, rfl, hblanks, _, _, rfl, rfl, text, _, rfl, htext, _, _, rfl, rfl, rfl⟩ := h
  refine ⟨blanks ++ "///".toList ++ text, by simp, by simp, ?_⟩
  simp [not_mem_of_indent hblanks, not_mem_of_upTo htext]

theorem line_of_attributeLine {word : Text} (h : attributeLine.Spells word) :
    ∃ body, word = body ++ ['\n'] ∧ body ≠ [] ∧ '\n' ∉ body := by
  simp only [attributeLine, spells_all_cons, spells_all_nil, spells_literal, spells_char] at h
  obtain ⟨blanks, _, rfl, hblanks, _, _, rfl, rfl, text, _, rfl, htext, _, _, rfl, rfl, later, _,
    rfl, hlater, return?, _, rfl, hreturn, _, _, rfl, rfl, rfl⟩ := h
  have hreturn' : '\n' ∉ return? := by
    rcases hreturn with hreturn | rfl
    · rw [spells_char.1 hreturn]
      decide
    · simp
  refine ⟨blanks ++ "#[".toList ++ text ++ ']' :: later ++ return?, by simp, by simp, ?_⟩
  simp [not_mem_of_indent hblanks, not_mem_of_upTo htext, not_mem_of_indent hlater, hreturn']

/-- Lines in front of an item hold no blank line and do not begin with one. -/
theorem not_isInfix_leading {word : Text} (h : leading.Spells word) :
    ¬ ['\n', '\n'] <:+: '\n' :: word := by
  simp only [leading, spells_all_cons, spells_all_nil] at h
  obtain ⟨_, _, rfl, ⟨docs, rfl, hdocs⟩, _, _, rfl, ⟨attributes, rfl, hattributes⟩, blanks, _, rfl,
    hblanks, rfl⟩ := h
  have hlines : ∀ line ∈ docs ++ attributes,
      ∃ body, line = body ++ ['\n'] ∧ body ≠ [] ∧ '\n' ∉ body := by
    rw [List.forall_mem_append]
    exact ⟨fun line hline => line_of_docLine (hdocs line hline),
      fun line hline => line_of_attributeLine (hattributes line hline)⟩
  have hall := Text.not_isInfix_lines hlines (not_mem_of_indent hblanks)
  simpa using hall

/-- What may stand between the lines in front of an item and `fn`. -/
def modifiers : List Pattern :=
  .maybe visibility :: qualifiers

/-- A function from its keyword on. -/
def keyword (name : String) : List Pattern :=
  [literal "fn".toList, gap, literal name.toList, space, .maybe generics, space, char '(', upTo ')',
    char ')', .maybe result, space, char '{']

theorem function_eq (name : String) :
    function name = all (leading :: (modifiers ++ .wordEdge :: keyword name)) :=
  rfl

theorem spells_gap {word : Text} :
    gap.Spells word ↔ word ≠ [] ∧ ∀ z ∈ word, Text.isBlank z = true :=
  spells_run1

theorem spells_qualifier {name : String} {word : Text} (h : (qualifier name).Spells word) :
    word = [] ∨ ∃ blanks, word = name.toList ++ blanks ∧ ∀ z ∈ blanks, Text.isBlank z = true := by
  rcases h with h | rfl
  · simp only [spells_all_cons, spells_all_nil, spells_literal, spells_gap] at h
    obtain ⟨_, _, rfl, rfl, blanks, _, rfl, hblanks, rfl⟩ := h
    exact .inr ⟨blanks, by simp, hblanks.2⟩
  · exact .inl rfl

theorem spells_visibility {word : Text} (h : (maybe visibility).Spells word) :
    word = [] ∨ ∃ scope blanks, word = "pub".toList ++ scope ++ blanks ∧ gap.Spells blanks ∧
      (scope = [] ∨ ∃ space inner,
        scope = space ++ '(' :: inner ++ [')'] ∧ (∀ z ∈ space, Text.isBlank z = true) ∧
          ')' ∉ inner) := by
  rcases h with h | rfl
  · simp only [visibility, spells_all_cons, spells_all_nil, spells_literal] at h
    obtain ⟨_, _, rfl, rfl, scope, _, rfl, hscope, blanks, _, rfl, hblanks, rfl⟩ := h
    refine .inr ⟨scope, blanks, by simp, hblanks, ?_⟩
    rcases hscope with hscope | rfl
    · simp only [spells_all_cons, spells_all_nil, spells_char] at hscope
      obtain ⟨space, _, rfl, hspace, _, _, rfl, rfl, inner, _, rfl, hinner, _, _, rfl, rfl, rfl⟩ :=
        hscope
      exact .inr ⟨space, inner, by simp, hspace, not_mem_of_upTo hinner⟩
    · exact .inl rfl
  · exact .inl rfl

/-- Modifiers are nothing, or end in a visible character and blanks; it is the `b` of `pub` only if
`pub` is all of them. -/
theorem end_of_modifiers {word : Text} (h : (all modifiers).Spells word) :
    word = [] ∨ ∃ init last blanks, word = init ++ last :: blanks ∧
      (∀ z ∈ blanks, Text.isBlank z = true) ∧ last ∈ ['b', ')', 't', 'c', 'e'] ∧
      (last = 'b' → init = ['p', 'u']) := by
  simp only [modifiers, qualifiers, spells_all_cons, spells_all_nil] at h
  obtain ⟨v₁, _, rfl, hpub, v₂, _, rfl, hconst, v₃, _, rfl, hasync, v₄, _, rfl, hunsafe, rfl⟩ := h
  rcases spells_qualifier hunsafe with rfl | ⟨blanks, rfl, hblanks⟩
  · rcases spells_qualifier hasync with rfl | ⟨blanks, rfl, hblanks⟩
    · rcases spells_qualifier hconst with rfl | ⟨blanks, rfl, hblanks⟩
      · rcases spells_visibility hpub with
          rfl | ⟨scope, blanks, rfl, hblanks, rfl | ⟨space, inner, rfl, _, _⟩⟩
        · exact .inl rfl
        · exact .inr ⟨"pu".toList, 'b', blanks, by simp, (spells_gap.1 hblanks).2, by simp,
            by simp⟩
        · exact .inr ⟨"pub".toList ++ (space ++ '(' :: inner), ')', blanks, by simp,
            (spells_gap.1 hblanks).2, by simp, by simp⟩
      · exact .inr ⟨v₁ ++ "cons".toList, 't', blanks, by simp, hblanks, by simp, by simp⟩
    · exact .inr ⟨v₁ ++ v₂ ++ "asyn".toList, 'c', blanks, by simp, hblanks, by simp, by simp⟩
  · exact .inr ⟨v₁ ++ v₂ ++ v₃ ++ "unsaf".toList, 'e', blanks, by simp, hblanks, by simp, by simp⟩

theorem not_mem_of_qualifiers {word : Text} (h : (all qualifiers).Spells word) : '/' ∉ word := by
  have hqualifier : ∀ {name : String} {word : Text}, '/' ∉ name.toList →
      (qualifier name).Spells word → '/' ∉ word := by
    intro name word hname hword
    rcases spells_qualifier hword with rfl | ⟨blanks, rfl, hblanks⟩
    · simp
    · rw [List.mem_append, not_or]
      exact ⟨hname, fun hmem => absurd (hblanks _ hmem) (by decide)⟩
  simp only [qualifiers, spells_all_cons, spells_all_nil] at h
  obtain ⟨v₁, _, rfl, hconst, v₂, _, rfl, hasync, v₃, _, rfl, hunsafe, rfl⟩ := h
  simp only [List.append_nil, List.mem_append, not_or]
  exact ⟨hqualifier (by decide) hconst, hqualifier (by decide) hasync,
    hqualifier (by decide) hunsafe⟩

/-- A slash among modifiers stands between the parentheses of `pub`, and behind these there are
white space and qualifiers. -/
theorem scope_of_modifiers {word : Text} (h : (all modifiers).Spells word) (hslash : '/' ∈ word) :
    ∃ space inner later, word = ['p', 'u', 'b'] ++ space ++ '(' :: inner ++ ')' :: later ∧
      (∀ z ∈ space, Text.isBlank z = true) ∧ ')' ∉ inner ∧ '/' ∉ later ∧
      (all (gap :: qualifiers)).Spells later := by
  obtain ⟨v, words, rfl, hpub, hwords⟩ := spells_all_cons.1 h
  have hafter := not_mem_of_qualifiers hwords
  have hblank : ∀ {blanks : Text}, gap.Spells blanks → '/' ∉ blanks :=
    fun hblanks hmem => absurd ((spells_gap.1 hblanks).2 _ hmem) (by decide)
  rcases spells_visibility hpub with
    rfl | ⟨scope, blanks, rfl, hblanks, rfl | ⟨space, inner, rfl, hspace, hinner⟩⟩
  · exact absurd hslash hafter
  · exact absurd hslash (by simpa [hblank hblanks] using hafter)
  · refine ⟨space, inner, blanks ++ words, by simp, hspace, hinner, ?_,
      spells_cons hblanks hwords⟩
    rw [List.mem_append, not_or]
    exact ⟨hblank hblanks, hafter⟩

/-- A match has lines, modifiers, the keyword, the name, and then a blank or a bracket. -/
theorem exists_parts_of_spells {name : String} {word : Text} (h : (function name).Spells word) :
    ∃ lines mods c blanks z rest,
      word = lines ++ mods ++ 'f' :: 'n' :: c :: (blanks ++ (name.toList ++ z :: rest)) ∧
      leading.Spells lines ∧ (all modifiers).Spells mods ∧
      Text.isBlank c = true ∧ (∀ z ∈ blanks, Text.isBlank z = true) ∧
      (Text.isBlank z = true ∨ z = '<' ∨ z = '(') := by
  rw [function_eq, spells_all_cons] at h
  obtain ⟨lines, _, rfl, hlines, h⟩ := h
  rw [spells_all_append] at h
  obtain ⟨mods, _, rfl, hmods, h⟩ := h
  rw [spells_all_cons] at h
  obtain ⟨_, _, rfl, rfl, h⟩ := h
  simp only [keyword, spells_all_cons, spells_literal, spells_gap, spells_char] at h
  obtain ⟨_, _, rfl, rfl, gap, _, rfl, hgap, _, _, rfl, rfl, space, _, rfl, hspace, angles, _,
    rfl, hgenerics, space', _, rfl, hspace', _, rest, rfl, rfl, _⟩ := h
  obtain ⟨c, blanks, rfl⟩ := List.exists_cons_of_ne_nil hgap.1
  obtain ⟨z, tail, htail, hz⟩ : ∃ z tail,
      space ++ (angles ++ (space' ++ ('(' :: rest))) = z :: tail ∧
        (Text.isBlank z = true ∨ z = '<' ∨ z = '(') := by
    rcases space with _ | ⟨z, space⟩
    · rcases hgenerics with hgenerics | rfl
      · simp only [generics, spells_all_cons, spells_char] at hgenerics
        obtain ⟨_, _, rfl, rfl, _⟩ := hgenerics
        exact ⟨'<', _, rfl, .inr (.inl rfl)⟩
      · rcases space' with _ | ⟨z, space'⟩
        · exact ⟨'(', _, rfl, .inr (.inr rfl)⟩
        · exact ⟨z, _, rfl, .inl (hspace' z (by simp))⟩
    · exact ⟨z, _, rfl, .inl (hspace z (by simp))⟩
  refine ⟨lines, mods, c, blanks, z, tail, ?_, hlines, hmods, hgap.2 c (by simp),
    fun z hz => hgap.2 z (by simp [hz]), hz⟩
  rw [← htail]
  simp

/-- What is matched begins with those parts. -/
theorem exists_parts_of_derives {name : String} {behind ahead : Text} {d : Cursor}
    (h : Derives (function name) ⟨behind, ahead⟩ d) :
    ∃ lines mods c blanks z rest,
      ahead = lines ++ mods ++ 'f' :: 'n' :: c :: (blanks ++ (name.toList ++ z :: rest)) ∧
      leading.Spells lines ∧ (all modifiers).Spells mods ∧
      Text.isBlank c = true ∧ (∀ z ∈ blanks, Text.isBlank z = true) ∧
      (Text.isBlank z = true ∨ z = '<' ∨ z = '(') := by
  obtain ⟨word, hword, hpass, _⟩ := h.exists_spells
  obtain ⟨lines, mods, c, blanks, z, rest, rfl, hparts⟩ := exists_parts_of_spells hword
  exact ⟨lines, mods, c, blanks, z, rest ++ d.ahead, by simpa using hpass, hparts⟩

end Shape

namespace FunctionItem

/-- The front ends in `pub ` or in an attribute line, or there are documentation lines alone or
nothing. -/
theorem front_cases (item : FunctionItem) :
    item.front = [] ∨ (∃ init, item.front = init ++ ['p', 'u', 'b', ' ']) ∨
      (∃ init, item.front = init ++ [']', '\n']) ∨
      item.attributes = [] ∧ item.isPublic = false ∧ '/' ∈ item.front := by
  rw [front]
  cases item.isPublic with
  | true => exact .inr (.inl ⟨_, rfl⟩)
  | false =>
    rw [if_neg (by simp), List.append_nil]
    rcases List.eq_nil_or_concat item.attributes with hattributes | ⟨lines, line, hattributes⟩
    · rcases List.eq_nil_or_concat item.docs with hdocs | ⟨lines, line, hdocs⟩
      · exact .inl (by simp [hattributes, hdocs])
      · exact .inr (.inr (.inr ⟨hattributes, rfl, by simp [hdocs, docLine]⟩))
    · refine .inr (.inr (.inl ⟨item.docs.flatMap docLine ++ lines.flatMap attributeLine
        ++ ("#[".toList ++ line), ?_⟩))
      simp [hattributes, attributeLine]

theorem spells_docLine {line : Text} (h : '\n' ∉ line) : Shape.docLine.Spells (docLine line) := by
  have heq : docLine line = [] ++ ("///".toList ++ (line ++ (['\n'] ++ []))) :=
    List.append_assoc _ _ _
  rw [heq]
  exact spells_cons Shape.spells_indent_nil (spells_cons (spells_literal.2 rfl)
    (spells_cons (Shape.spells_upTo h) (spells_cons (spells_char.2 rfl) rfl)))

theorem spells_attributeLine {line : Text} (h : '\n' ∉ line) :
    Shape.attributeLine.Spells (attributeLine line) := by
  have heq : attributeLine line
      = [] ++ ("#[".toList ++ (line ++ ([']'] ++ ([] ++ ([] ++ (['\n'] ++ [])))))) :=
    List.append_assoc _ _ _
  rw [heq]
  exact spells_cons Shape.spells_indent_nil (spells_cons (spells_literal.2 rfl)
    (spells_cons (Shape.spells_upTo h) (spells_cons (spells_char.2 rfl)
      (spells_cons Shape.spells_indent_nil (spells_cons (.inr rfl)
        (spells_cons (spells_char.2 rfl) rfl))))))

/-- The front of a function is lines and modifiers. -/
theorem spells_front {item : FunctionItem} (h : item.WellFormed) :
    (all (Shape.leading :: Shape.modifiers)).Spells item.front := by
  have hlines := h.lines
  rw [List.forall_mem_append] at hlines
  have hleading : Shape.leading.Spells
      (item.docs.flatMap docLine ++ (item.attributes.flatMap attributeLine ++ ([] ++ []))) := by
    refine spells_cons ⟨item.docs.map docLine, rfl, ?_⟩
      (spells_cons ⟨item.attributes.map attributeLine, rfl, ?_⟩
        (spells_cons Shape.spells_indent_nil rfl))
    · exact List.forall_mem_map.2 fun line hline => spells_docLine (hlines.1 line hline).1
    · exact List.forall_mem_map.2 fun line hline => spells_attributeLine (hlines.2 line hline).1
  have hmodifiers : (all Shape.modifiers).Spells
      ((if item.isPublic then "pub ".toList else []) ++ ([] ++ ([] ++ ([] ++ [])))) := by
    refine spells_cons ?_ (spells_cons (.inr rfl) (spells_cons (.inr rfl) (spells_cons (.inr rfl)
      rfl)))
    cases item.isPublic with
    | false => exact .inr rfl
    | true =>
      have heq : "pub ".toList = "pub".toList ++ ([] ++ ([' '] ++ [])) := rfl
      rw [if_pos rfl, heq]
      exact .inl (spells_cons (spells_literal.2 rfl) (spells_cons (.inr rfl)
        (spells_cons (Shape.spells_gap.2 ⟨by simp, Shape.spells_space_one⟩) rfl)))
  have hfront := spells_cons hleading hmodifiers
  simp only [List.append_nil] at hfront
  exact hfront

/-- A function from its keyword on has the shape that is looked for. -/
theorem spells_keyword {item : FunctionItem} (h : item.WellFormed) :
    (all (Shape.keyword item.name)).Spells
      ("fn ".toList ++ (item.name.toList ++ (item.signature ++ ['{']))) := by
  have hresult : (maybe Shape.result).Spells item.arrow := by
    rw [arrow]
    cases hresult : item.result with
    | none => exact .inr rfl
    | some type =>
      obtain ⟨hne, hbrace, _⟩ := h.result type (by simp [hresult])
      have heq : (some type).elim [] (fun type => " -> ".toList ++ type)
          = [' '] ++ ("->".toList ++ ([' '] ++ (type ++ []))) := by
        simp
      rw [heq]
      exact .inl (spells_cons Shape.spells_space_one (spells_cons (spells_literal.2 rfl)
        (spells_cons Shape.spells_space_one
          (spells_cons (spells_run1.2 ⟨hne, Shape.spells_upTo hbrace⟩) rfl))))
  have heq : "fn ".toList ++ (item.name.toList ++ (item.signature ++ ['{']))
      = "fn".toList ++ ([' '] ++ (item.name.toList ++ ([] ++ ([] ++ ([] ++ (['('] ++ (item.params
        ++ ([')'] ++ (item.arrow ++ ([' '] ++ (['{'] ++ []))))))))))) := by
    simp [signature]
  rw [heq]
  have hgap : Shape.gap.Spells [' '] := Shape.spells_gap.2 ⟨by simp, Shape.spells_space_one⟩
  exact spells_cons (spells_literal.2 rfl) (spells_cons hgap
    (spells_cons (spells_literal.2 rfl) (spells_cons (Shape.spells_space_nil)
      (spells_cons (.inr rfl) (spells_cons (Shape.spells_space_nil)
        (spells_cons (spells_char.2 rfl) (spells_cons (Shape.spells_upTo h.params.1)
          (spells_cons (spells_char.2 rfl) (spells_cons hresult
            (spells_cons (Shape.spells_space_one) (spells_cons (spells_char.2 rfl)
              rfl)))))))))))

/-- The keyword of a function stands at a word edge. -/
theorem atWordEdge_keyword (item : FunctionItem) {above : Text}
    (hparagraph : above = [] ∨ ['\n', '\n'] <:+ above) (rest : Text) :
    (Cursor.mk (item.front.reverse ++ above.reverse) ('f' :: rest)).atWordEdge = true := by
  have hlast : ∀ z ∈ (above ++ item.front).getLast?, z = '\n' ∨ z = ' ' := by
    refine Text.forall_getLast?_append ?_ item.getLast?_front
    rcases hparagraph with rfl | ⟨front, rfl⟩
    · simp
    · simp [List.getLast?_append]
  have hbehind : Text.isWordAt (item.front.reverse ++ above.reverse).head? = false := by
    rw [← List.reverse_append, List.head?_reverse]
    cases hz : (above ++ item.front).getLast? with
    | none => rfl
    | some z => rcases hlast z hz with rfl | rfl <;> rfl
  rw [Cursor.atWordEdge, hbehind]
  rfl

/-- A function is recognised where it begins. -/
theorem exists_derives_function {item : FunctionItem} (h : item.WellFormed) {above : Text}
    (hparagraph : above = [] ∨ ['\n', '\n'] <:+ above) (below : Text) :
    ∃ d, Derives (Shape.function item.name) ⟨above.reverse, item.text ++ below⟩ d := by
  let head : Text := "fn ".toList ++ (item.name.toList ++ (item.signature ++ ['{']))
  let rest : Text := item.body ++ '}' :: below
  have htext : item.text ++ below = item.front ++ (head ++ rest) := by
    simp [head, rest, text, header, block]
  have hfront : Derives (all (Shape.leading :: Shape.modifiers))
      ⟨above.reverse, item.front ++ (head ++ rest)⟩
      ⟨item.front.reverse ++ above.reverse, head ++ rest⟩ :=
    derives_of_spells rfl (spells_front h) ⟨rfl, rfl⟩
  have hplain : (all (Shape.keyword item.name)).isPlain = true := by
    rw [isPlain_all, Shape.keyword, List.all_cons, List.all_cons, List.all_cons, isPlain_literal,
      isPlain_literal]
    rfl
  have hkeyword : Derives (all (Shape.keyword item.name))
      ⟨item.front.reverse ++ above.reverse, head ++ rest⟩
      ⟨head.reverse ++ (item.front.reverse ++ above.reverse), rest⟩ :=
    derives_of_spells hplain (spells_keyword h) ⟨rfl, rfl⟩
  have hedge := item.atWordEdge_keyword hparagraph ('n' :: ' ' :: (item.name.toList
    ++ (item.signature ++ ['{'])) ++ rest)
  rw [htext, Shape.function_eq, ← List.cons_append]
  exact ⟨_, derives_all_append.2 ⟨_, hfront, derives_all_cons.2 ⟨_, .wordEdge hedge, hkeyword⟩⟩⟩

end FunctionItem

/-- A part of the text above a definition, up to its end, ends a paragraph if a line feed stands in
front of it. -/
theorem paragraph_of_suffix {above v : Text} (hv : v <:+ above) (hne : v ≠ [])
    (hparagraph : ['\n', '\n'] <:+ above) : ['\n', '\n'] <:+ '\n' :: v := by
  rcases List.suffix_or_suffix_of_suffix hparagraph hv with h | h
  · exact h.trans (List.suffix_cons _ _)
  · rcases List.suffix_cons_iff.1 h with rfl | h
    · exact List.suffix_cons _ _
    · rcases List.suffix_cons_iff.1 h with rfl | h
      · exact List.suffix_refl _
      · exact absurd (List.suffix_nil.1 h) hne

/-- In the scope of a `pub` no parenthesis closes before its end. -/
theorem not_mem_scope {space inner : Text} (hspace : ∀ z ∈ space, Text.isBlank z = true)
    (hinner : ')' ∉ inner) : ')' ∉ space ++ '(' :: inner := by
  have hspace' : ')' ∉ space := fun h => absurd (hspace _ h) (by decide)
  simp [hspace', hinner]

/-- A scope that reaches into a text beyond a character of it closes with the first closing
parenthesis of the text. -/
theorem exists_of_scope {v front space inner later : Text} {mark : Char} (hmark : mark ∈ front)
    (hspace : ∀ z ∈ space, Text.isBlank z = true) (hinner : ')' ∉ inner)
    (hlater : mark ∉ ')' :: later)
    (heq : v ++ front = ['p', 'u', 'b'] ++ (space ++ '(' :: inner ++ ')' :: later)) :
    ∃ mid, ')' ∉ mid ∧ front = mid ++ ')' :: later := by
  rw [← List.append_assoc] at heq
  rcases List.append_eq_append_iff.1 heq with ⟨mid, hscope, hfront⟩ | ⟨mid, _, hmid⟩
  · have hopen : ')' ∉ ['p', 'u', 'b'] ++ (space ++ '(' :: inner) := by
      simpa using not_mem_scope hspace hinner
    rw [hscope] at hopen
    exact ⟨mid, fun hmem => hopen (List.mem_append_right _ hmem), hfront⟩
  · rw [hmid] at hlater
    exact absurd (List.mem_append_right _ hmark) hlater

/-- The parentheses of a `pub` above a definition do not reach beyond a character of it, if those
above the definition are closed there. -/
theorem not_scope_of_closesPub {above v front space inner later : Text} {mark : Char}
    (hv : v <:+ above) (hends : above.endsItem = true) (hclosed : above.ClosesPub) (hne : v ≠ [])
    (hmark : mark ∈ front) (hspace : ∀ z ∈ space, Text.isBlank z = true) (hinner : ')' ∉ inner)
    (hlater : mark ∉ later)
    (heq : v ++ front = ['p', 'u', 'b'] ++ (space ++ '(' :: inner ++ ')' :: later)) : False := by
  obtain ⟨u, rfl⟩ := hv
  have hend : v.endsItem = true := Text.endsItem_of_append hends
  rcases List.append_eq_append_iff.1 heq with ⟨mid, hpub, _⟩ | ⟨b, rfl, hb⟩
  -- the text above does not end inside the word
  · obtain ⟨init, z, rfl⟩ := (List.eq_nil_or_concat v).resolve_left hne
    rw [List.concat_eq_append] at hpub hend
    have hz : z ∈ ['p', 'u', 'b'] := by simp [hpub]
    have hword : ∀ z ∈ ['p', 'u', 'b'], Text.isBlank z = false ∧ ¬ (z = ';' ∨ z = '}') := by
      simp only [List.forall_mem_cons]
      exact ⟨by decide, by decide, by decide, by simp⟩
    exact (hword z hz).2 (Text.eq_of_endsItem hend (by simp) (hword z hz).1)
  -- so the opening parenthesis stands above, and so does a closing one
  · have hvisible : b.dropWhile Text.isBlank ≠ [] := by
      intro hnil
      have hblanks := List.dropWhile_eq_nil_iff.1 hnil
      have hend' : Text.endsItem (['p', 'u'] ++ 'b' :: b) = true := hend
      exact absurd (Text.eq_of_endsItem hend' hblanks rfl) (by decide)
    have hparen : (b.dropWhile Text.isBlank).head? = some '(' := by
      have hleft : (b ++ front).dropWhile Text.isBlank = b.dropWhile Text.isBlank ++ front := by
        rw [List.dropWhile_append, if_neg (by rwa [List.isEmpty_iff])]
      have hright : (b ++ front).dropWhile Text.isBlank = '(' :: (inner ++ ')' :: later) := by
        rw [← hb, List.append_assoc, List.dropWhile_append_of_pos hspace, List.cons_append,
          List.dropWhile_cons_of_neg (by decide)]
      obtain ⟨z, rest, hrest⟩ := List.exists_cons_of_ne_nil hvisible
      rw [hleft, hrest] at hright
      rw [hrest, (List.cons.inj hright).1]
      rfl
    have hmem : ')' ∈ b := hclosed u b (by simp) hparen
    have hopen := not_mem_scope hspace hinner
    rcases List.append_eq_append_iff.1 hb with ⟨mid, rfl, hmid⟩ | ⟨mid, hmid, _⟩
    · rcases mid with _ | ⟨z, mid⟩
      · exact hopen (by simpa using hmem)
      · rw [(List.cons.inj hmid).2] at hlater
        exact hlater (List.mem_append_right _ hmark)
    · rw [hmid] at hopen
      exact hopen (List.mem_append_left _ hmem)

/-- Lines in front of a definition do not begin above it. -/
theorem not_prefix_leading {above v lines : Text} (hlines : Shape.leading.Spells lines)
    (hv : v <:+ above) (hne : v ≠ []) (hparagraph : above = [] ∨ ['\n', '\n'] <:+ above) :
    ¬ v <+: lines := by
  intro hprefix
  have hblank : ['\n', '\n'] <:+: '\n' :: v := by
    refine (paragraph_of_suffix hv hne (hparagraph.resolve_left ?_)).isInfix
    rintro rfl
    exact hne (List.suffix_nil.1 hv)
  exact Shape.not_isInfix_leading hlines
    (hblank.trans ((List.prefix_cons_inj '\n').2 hprefix).isInfix)

/-- Modifiers that end in front of the keyword of a function do not begin above the function. -/
theorem eq_nil_of_modifiers {item : FunctionItem} {above v word : Text}
    (hword : (all Shape.modifiers).Spells word) (hv : v <:+ above) (heq : word = v ++ item.front)
    (hends : above.endsItem = true) (hclosed : item.isExposed = true → above.ClosesPub) :
    v = [] := by
  apply Classical.byContradiction
  intro hne
  rcases Shape.end_of_modifiers hword with rfl | ⟨init, last, blanks, hinit, hblanks, hlast, hpub⟩
  · exact hne (List.append_eq_nil_iff.1 heq.symm).1
  have hvisible : ∀ z ∈ ['b', ')', 't', 'c', 'e'],
      Text.isBlank z = false ∧ ¬ (z = ';' ∨ z = '}') ∧ z ≠ ']' := by
    simp only [List.forall_mem_cons]
    exact ⟨by decide, by decide, by decide, by decide, by decide, by simp⟩
  obtain ⟨hlast, hitem, hbracket⟩ := hvisible last hlast
  rcases item.front_cases with hfront | ⟨front, hfront⟩ | ⟨front, hfront⟩ |
    ⟨hattributes, hpublic, hslash⟩
  -- what ends above would end an item
  · obtain ⟨u, rfl⟩ := hv
    have hends' := Text.endsItem_of_append hends
    rw [hfront, List.append_nil] at heq
    rw [← heq, hinit] at hends'
    exact hitem (Text.eq_of_endsItem hends' hblanks hlast)
  -- `pub` would be all of the modifiers
  · have hend : init ++ last :: blanks = (v ++ front ++ ['p', 'u']) ++ 'b' :: [' '] := by
      rw [← hinit, heq, hfront]
      simp
    obtain ⟨hinit', rfl⟩ := Text.append_cons_inj_of_blank hend hblanks
      (List.forall_mem_singleton.2 rfl) hlast rfl
    have hlength := congrArg List.length ((hpub rfl).symm.trans hinit')
    simp only [List.length_append, List.length_cons, List.length_nil] at hlength
    exact hne (List.eq_nil_of_length_eq_zero (by omega))
  -- they would end in the bracket of an attribute
  · have hend : init ++ last :: blanks = (v ++ front) ++ ']' :: ['\n'] := by
      rw [← hinit, heq, hfront]
      simp
    obtain ⟨_, rfl⟩ := Text.append_cons_inj_of_blank hend hblanks
      (List.forall_mem_singleton.2 rfl) hlast rfl
    exact hbracket rfl
  -- they would end in documentation, inside a parenthesis that opens above
  · have hslash' : '/' ∈ word := by
      rw [heq]
      exact List.mem_append_right _ hslash
    obtain ⟨space, inner, later, hscope, hspace, hinner, hlater, hwords⟩ :=
      Shape.scope_of_modifiers hword hslash'
    have hpub : v ++ item.front = ['p', 'u', 'b'] ++ (space ++ '(' :: inner ++ ')' :: later) := by
      rw [← heq, hscope]
      simp
    obtain ⟨mid, hmid, hfirst⟩ :=
      exists_of_scope hslash hspace hinner (by simpa using hlater) hpub
    have hexposed : item.isExposed = true := by
      have hbehind : item.front.behindParen? = some later := by
        rw [hfirst, Text.behindParen?_append hmid]
      have htakes := (takes_iff_spells (by decide)).2 hwords
      simp [FunctionItem.isExposed, hattributes, hpublic, hbehind, htakes]
    exact not_scope_of_closesPub hv hends (hclosed hexposed) hne hslash hspace hinner hlater hpub

/-- Lines and modifiers that end in front of the keyword of a function do not begin above the
function. -/
theorem eq_nil_of_front {item : FunctionItem} {above v lines word : Text}
    (hlines : Shape.leading.Spells lines) (hword : (all Shape.modifiers).Spells word)
    (hv : v <:+ above) (heq : lines ++ word = v ++ item.front)
    (hparagraph : above = [] ∨ ['\n', '\n'] <:+ above) (hends : above.endsItem = true)
    (hclosed : item.isExposed = true → above.ClosesPub) : v = [] := by
  apply Classical.byContradiction
  intro hne
  have hlonger := not_prefix_leading hlines hv hne hparagraph
  rcases List.append_eq_append_iff.1 heq with ⟨v', rfl, hmodifiers⟩ | ⟨mid, rfl, _⟩
  · have hv' := eq_nil_of_modifiers hword ((List.suffix_append _ _).trans hv) hmodifiers hends
      hclosed
    rw [hv', List.append_nil] at hlonger
    exact hlonger (List.prefix_refl _)
  -- lines that hold all of the text above hold the blank line at its end
  · exact hlonger (List.prefix_append v mid)

end Carver
