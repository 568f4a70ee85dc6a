import Carver.Proofs.FunctionHead

/-!
# The grammar of definitions

What a definition looks like, as rules on texts: which words make up a documentation line, a
visibility, the head of a function, a struct. The rules know neither patterns nor searches. A head
is told together with the text before it, because its keyword has to begin a word.

The shapes that are searched for pass exactly these words (`describes_function`,
`describes_struct`). Between `pub` and its parenthesis the shapes allow white space; the rules leave
open what stands there, so that they can be asked for less.
-/

namespace Carver

namespace Grammar

/-! ## Parts -/

/-- Spaces and tabs. -/
def Blanks (word : Text) : Prop :=
  ∀ c ∈ word, c = ' ' ∨ c = '\t'

/-- White space, or nothing. -/
def Space (word : Text) : Prop :=
  ∀ c ∈ word, Text.isBlank c = true

/-- White space. -/
def Gap (word : Text) : Prop :=
  word ≠ [] ∧ Space word

/-- A word of the form, or nothing. -/
inductive Optional (form : Text → Prop) : Text → Prop
  | absent : Optional form []
  | present {word : Text} : form word → Optional form word

/-- Any number of words of the form. -/
inductive Several (form : Text → Prop) : Text → Prop
  | none : Several form []
  | more {word rest : Text} : form word → Several form rest → Several form (word ++ rest)

/-- A line of documentation. -/
inductive DocLine : Text → Prop
  | line {blanks text : Text} : Blanks blanks → '\n' ∉ text →
      DocLine (blanks ++ "///".toList ++ text ++ ['\n'])

/-- A line with an attribute. -/
inductive AttributeLine : Text → Prop
  | line {blanks text later ending : Text} : Blanks blanks → '\n' ∉ text → Blanks later →
      Optional (· = ['\r']) ending →
      AttributeLine (blanks ++ "#[".toList ++ text ++ ']' :: later ++ ending ++ ['\n'])

/-- Documentation, then attributes, then the indentation of the item. -/
inductive Leading : Text → Prop
  | lines {docs attributes blanks : Text} : Several DocLine docs →
      Several AttributeLine attributes → Blanks blanks → Leading (docs ++ attributes ++ blanks)

/-- `pub`, possibly with a scope in parentheses; `between` may stand in front of them. -/
inductive Visibility (between : Text → Prop) : Text → Prop
  | plain {gap : Text} : Gap gap → Visibility between ("pub".toList ++ gap)
  | scoped {space inner gap : Text} : between space → ')' ∉ inner → Gap gap →
      Visibility between ("pub".toList ++ space ++ '(' :: inner ++ ')' :: gap)

/-- A word in front of `fn`. -/
inductive Qualifier (keyword : String) : Text → Prop
  | word {gap : Text} : Gap gap → Qualifier keyword (keyword.toList ++ gap)

/-- A list of generic parameters. -/
inductive Generics : Text → Prop
  | list {inner : Text} : '>' ∉ inner → Generics ('<' :: inner ++ ['>'])

/-- A result type. -/
inductive Result : Text → Prop
  | arrow {type : Text} : type ≠ [] → '{' ∉ type → Result ("->".toList ++ type)

/-! ## Definitions -/

/-- A function in front of `fn`. -/
inductive FunctionFront (between : Text → Prop) : Text → Prop
  | front {lead visibility q₁ q₂ q₃ : Text} : Leading lead →
      Optional (Visibility between) visibility → Optional (Qualifier "const") q₁ →
      Optional (Qualifier "async") q₂ → Optional (Qualifier "unsafe") q₃ →
      FunctionFront between (lead ++ visibility ++ q₁ ++ q₂ ++ q₃)

/-- A function from `fn` to the brace that opens its body. -/
inductive Signature (name : String) : Text → Prop
  | signature {gap s₁ generics s₂ params s₃ result s₄ : Text} : Gap gap → Space s₁ →
      Optional Generics generics → Space s₂ → ')' ∉ params → Space s₃ → Optional Result result →
      Space s₄ →
      Signature name ("fn".toList ++ gap ++ name.toList ++ s₁ ++ generics ++ s₂ ++ '(' :: params
        ++ ')' :: s₃ ++ result ++ s₄ ++ ['{'])

/-- A struct in front of `struct`. -/
inductive StructFront (between : Text → Prop) : Text → Prop
  | front {lead visibility : Text} : Leading lead → Optional (Visibility between) visibility →
      StructFront between (lead ++ visibility)

/-- A struct from `struct` to the brace that closes its fields. -/
inductive StructBody (name : String) : Text → Prop
  | body {gap s₁ generics s₂ fields : Text} : Gap gap → Space s₁ → Optional Generics generics →
      Space s₂ → '}' ∉ fields →
      StructBody name ("struct".toList ++ gap ++ name.toList ++ s₁ ++ generics ++ s₂
        ++ '{' :: fields ++ ['}'])

/-- A word may begin behind the text: it does not end inside one. -/
def AtWordStart (text : Text) : Prop :=
  Text.isWordAt text.getLast? = false

/-- The front and the rest of a definition, whose keyword begins a word in the text. -/
inductive Item (front rest : Text → Prop) (before : Text) : Text → Prop
  | item {u v : Text} : front u → AtWordStart (before ++ u) → rest v →
      Item front rest before (u ++ v)

/-- The head of a function of this name, behind the text `before`. -/
def FunctionHead (between : Text → Prop) (name : String) : Text → Text → Prop :=
  Item (FunctionFront between) (Signature name)

/-- A struct of this name, behind the text `before`. -/
def StructItem (between : Text → Prop) (name : String) : Text → Text → Prop :=
  Item (StructFront between) (StructBody name)

end Grammar

open Pattern

/-! ## Patterns around a word edge -/

namespace Pattern

/-- The pattern passes a word behind a text exactly if the two have the form. -/
def Describes (p : Pattern) (form : Text → Text → Prop) : Prop :=
  ∀ before word after : Text, Derives p ⟨before.reverse, word ++ after⟩
    ⟨word.reverse ++ before.reverse, after⟩ ↔ form before word

theorem derives_iff_of_isPlain {p : Pattern} (hplain : p.isPlain = true)
    {before word after : Text} :
    Derives p ⟨before.reverse, word ++ after⟩ ⟨word.reverse ++ before.reverse, after⟩
      ↔ p.Spells word := by
  constructor
  · intro h
    obtain ⟨other, hother, hahead, _⟩ := h.exists_spells
    rwa [List.append_cancel_right hahead]
  · intro h
    exact derives_of_spells hplain h ⟨rfl, rfl⟩

/-- In front of a word character, a word edge is where a word may begin. -/
theorem atWordEdge_iff {u v : Text} (hv : Text.isWordAt v.head? = true) (before after : Text) :
    (Cursor.mk (u.reverse ++ before.reverse) (v ++ after)).atWordEdge = true
      ↔ Grammar.AtWordStart (before ++ u) := by
  have hahead : Text.isWordAt (v ++ after).head? = true := by
    cases v with
    | nil => cases hv
    | cons c rest => exact hv
  rw [Cursor.atWordEdge, hahead, Grammar.AtWordStart, ← List.reverse_append, List.head?_reverse]
  simp

/-- If the second part begins with a word character, it has to begin a word. -/
theorem describes_edge {ps qs : List Pattern} (hps : (all ps).isPlain = true)
    (hqs : (all qs).isPlain = true)
    (hword : ∀ v, (all qs).Spells v → Text.isWordAt v.head? = true) :
    (all (ps ++ .wordEdge :: qs)).Describes (Grammar.Item (all ps).Spells (all qs).Spells) := by
  intro before word after
  rw [derives_all_append]
  constructor
  · rintro ⟨⟨behind, ahead⟩, hfront, hrest⟩
    obtain ⟨u, hu, hahead, hbehind⟩ := hfront.exists_spells
    obtain ⟨d, hd, hrest⟩ := derives_all_cons.1 hrest
    cases hd with
    | wordEdge hedge =>
      obtain ⟨v, hv, hahead', _⟩ := hrest.exists_spells
      simp only at hahead hbehind hahead'
      subst hahead' hbehind
      rw [← List.append_assoc] at hahead
      rw [List.append_cancel_right hahead]
      exact .item hu ((atWordEdge_iff (hword v hv) before after).1 hedge) hv
  · rintro ⟨hu, hstart, hv⟩
    rename_i u v
    have hrest := (@derives_iff_of_isPlain _ hqs (before ++ u) v after).2 hv
    have hbehind : v.reverse ++ (before ++ u).reverse = (u ++ v).reverse ++ before.reverse := by
      simp
    rw [hbehind, List.reverse_append] at hrest
    refine ⟨⟨u.reverse ++ before.reverse, v ++ after⟩, ?_, derives_all_cons.2
      ⟨⟨u.reverse ++ before.reverse, v ++ after⟩, ?_, hrest⟩⟩
    · rw [List.append_assoc]
      exact (derives_iff_of_isPlain hps).2 hu
    · exact .wordEdge ((atWordEdge_iff (hword v hv) before after).2 hstart)

end Pattern

/-! ## Words of the shapes -/

namespace Shape

open Grammar

theorem spells_indent_iff {word : Text} : indent.Spells word ↔ Blanks word := by
  simp only [indent, Spells, Blanks, Text.isIndent, Bool.or_eq_true, beq_iff_eq]

theorem spells_upTo_iff {c : Char} {word : Text} : (upTo c).Spells word ↔ c ∉ word :=
  ⟨not_mem_of_upTo, spells_upTo⟩

theorem spells_space_iff {word : Text} : space.Spells word ↔ Space word :=
  Iff.rfl

theorem spells_gap_iff {word : Text} : gap.Spells word ↔ Gap word :=
  spells_run1

theorem spells_maybe_iff {p : Pattern} {form : Text → Prop}
    (h : ∀ word, p.Spells word ↔ form word) (word : Text) :
    (Pattern.maybe p).Spells word ↔ Grammar.Optional form word := by
  constructor
  · rintro (hword | rfl)
    · exact .present ((h word).1 hword)
    · exact .absent
  · rintro (_ | hword)
    · exact .inr rfl
    · exact .inl ((h word).2 hword)

theorem spells_many_iff {p : Pattern} {form : Text → Prop}
    (h : ∀ word, p.Spells word ↔ form word) (word : Text) :
    (Pattern.many p).Spells word ↔ Several form word := by
  constructor
  · rintro ⟨words, rfl, hwords⟩
    induction words with
    | nil => exact .none
    | cons first words ih =>
      rw [List.forall_mem_cons] at hwords
      exact .more ((h first).1 hwords.1) (ih hwords.2)
  · intro hword
    induction hword with
    | none => exact ⟨[], rfl, by simp⟩
    | @more first rest hfirst _ ih =>
      obtain ⟨words, rfl, hwords⟩ := ih
      exact ⟨first :: words, rfl, List.forall_mem_cons.2 ⟨(h first).2 hfirst, hwords⟩⟩

theorem spells_docLine_iff (word : Text) : docLine.Spells word ↔ DocLine word := by
  simp only [docLine, spells_all_cons, spells_all_nil, spells_literal, spells_char,
    spells_indent_iff, spells_upTo_iff]
  constructor
  · rintro ⟨blanks, _, rfl, hblanks, _, _, rfl, rfl, text, _, rfl, htext, _, _, rfl, rfl, rfl⟩
    have hline := DocLine.line hblanks htext
    simpa only [List.append_assoc, List.append_nil] using hline
  · rintro ⟨hblanks, htext⟩
    rename_i blanks text
    exact ⟨blanks, "///".toList ++ (text ++ ['\n']), by simp, hblanks, "///".toList,
      text ++ ['\n'], rfl, rfl, text, ['\n'], rfl, htext, ['\n'], [], rfl, rfl, rfl⟩

theorem spells_attributeLine_iff (word : Text) :
    attributeLine.Spells word ↔ AttributeLine word := by
  have hreturn : ∀ ending, (Pattern.maybe (char '\r')).Spells ending
      ↔ Grammar.Optional (· = ['\r']) ending :=
    spells_maybe_iff fun _ => spells_char
  simp only [attributeLine, spells_all_cons, spells_all_nil, spells_literal, spells_char,
    spells_indent_iff, spells_upTo_iff, hreturn]
  constructor
  · rintro ⟨blanks, _, rfl, hblanks, _, _, rfl, rfl, text, _, rfl, htext, _, _, rfl, rfl, later, _,
      rfl, hlater, ending, _, rfl, hending, _, _, rfl, rfl, rfl⟩
    have hline := AttributeLine.line hblanks htext hlater hending
    simpa using hline
  · rintro ⟨hblanks, htext, hlater, hending⟩
    rename_i blanks text later ending
    exact ⟨blanks, _, by simp, hblanks, _, _, rfl, rfl, text, _, rfl, htext, _, _, rfl, rfl,
      later, _, rfl, hlater, ending, _, rfl, hending, _, [], rfl, rfl, rfl⟩

theorem spells_leading_iff (word : Text) : leading.Spells word ↔ Leading word := by
  simp only [leading, spells_all_cons, spells_all_nil, spells_indent_iff,
    spells_many_iff spells_docLine_iff, spells_many_iff spells_attributeLine_iff]
  constructor
  · rintro ⟨docs, _, rfl, hdocs, attributes, _, rfl, hattributes, blanks, _, rfl, hblanks, rfl⟩
    have hlines := Leading.lines hdocs hattributes hblanks
    simpa using hlines
  · rintro ⟨hdocs, hattributes, hblanks⟩
    rename_i docs attributes blanks
    exact ⟨docs, _, by simp, hdocs, attributes, _, rfl, hattributes, blanks, [], rfl, hblanks, rfl⟩

/-- `pub`, possibly with a scope in parentheses, and this pattern in front of them. -/
def visibilityWith (between : Pattern) : Pattern :=
  all [literal "pub".toList, .maybe (all [between, char '(', upTo ')', char ')']), gap]

theorem spells_visibilityWith_iff (between : Pattern) (word : Text) :
    (visibilityWith between).Spells word ↔ Visibility between.Spells word := by
  simp only [visibilityWith, spells_all_cons, spells_all_nil, spells_literal, spells_gap_iff]
  constructor
  · rintro ⟨_, _, rfl, rfl, scope, _, rfl, hscope | rfl, gap, _, rfl, hgap, rfl⟩
    · simp only [spells_all_cons, spells_all_nil, spells_char, spells_upTo_iff] at hscope
      obtain ⟨space, _, rfl, hspace, _, _, rfl, rfl, inner, _, rfl, hinner, _, _, rfl, rfl, rfl⟩ :=
        hscope
      have hword := Visibility.scoped hspace hinner hgap
      simpa using hword
    · have hword : Visibility between.Spells _ := .plain hgap
      simpa using hword
  · rintro (hgap | ⟨hspace, hinner, hgap⟩)
    · rename_i gap
      exact ⟨_, _, rfl, rfl, [], gap, rfl, .inr rfl, gap, [], by simp, hgap, rfl⟩
    · rename_i space inner gap
      refine ⟨_, (space ++ '(' :: inner ++ [')']) ++ gap, by simp, rfl, _, gap, rfl, .inl ?_, gap,
        [], by simp, hgap, rfl⟩
      simp only [spells_all_cons, spells_all_nil, spells_char, spells_upTo_iff]
      exact ⟨space, _, by simp, hspace, _, _, rfl, rfl, inner, _, rfl, hinner, _, [], rfl, rfl, rfl⟩

theorem spells_qualifier_iff (keyword : String) (word : Text) :
    (qualifier keyword).Spells word ↔ Grammar.Optional (Qualifier keyword) word := by
  refine spells_maybe_iff (fun word => ?_) word
  simp only [spells_all_cons, spells_all_nil, spells_literal, spells_gap_iff]
  constructor
  · rintro ⟨_, _, rfl, rfl, gap, _, rfl, hgap, rfl⟩
    rw [List.append_nil]
    exact .word hgap
  · rintro ⟨hgap⟩
    rename_i gap
    exact ⟨_, gap, rfl, rfl, gap, [], by simp, hgap, rfl⟩

theorem spells_generics_iff (word : Text) : generics.Spells word ↔ Generics word := by
  simp only [generics, spells_all_cons, spells_all_nil, spells_char, spells_upTo_iff]
  constructor
  · rintro ⟨_, _, rfl, rfl, inner, _, rfl, hinner, _, _, rfl, rfl, rfl⟩
    exact .list hinner
  · rintro ⟨hinner⟩
    rename_i inner
    exact ⟨['<'], inner ++ ['>'], rfl, rfl, inner, _, rfl, hinner, _, [], rfl, rfl, rfl⟩

/-- The white space in front of the result and of the brace need not be told apart. -/
theorem spells_result_iff (word : Text) :
    (all [.maybe result, space, char '{']).Spells word
      ↔ ∃ s₁ arrow s₂, Space s₁ ∧ Grammar.Optional Result arrow ∧ Space s₂ ∧
        word = s₁ ++ arrow ++ s₂ ++ ['{'] := by
  simp only [spells_all_cons, spells_all_nil, spells_char, spells_space_iff]
  constructor
  · rintro ⟨_, _, rfl, hresult | rfl, s₂, _, rfl, hs₂, _, _, rfl, rfl, rfl⟩
    · simp only [result, spells_all_cons, spells_all_nil, spells_literal, spells_run1,
        spells_space_iff] at hresult
      obtain ⟨s₁, _, rfl, hs₁, _, _, rfl, rfl, space, _, rfl, hspace, type, _, rfl, ⟨hne, htype⟩,
        rfl⟩ := hresult
      have htype' : '{' ∉ space ++ type := by
        rw [List.mem_append, not_or]
        exact ⟨fun hmem => absurd (hspace _ hmem) (by decide),
          fun hmem => by simpa using htype _ hmem⟩
      exact ⟨s₁, _, s₂, hs₁, .present (.arrow (by simp [hne]) htype'), hs₂, by simp⟩
    · exact ⟨[], [], s₂, by simp [Space], .absent, hs₂, by simp⟩
  · rintro ⟨s₁, _, s₂, hs₁, _ | ⟨hne, htype⟩, hs₂, rfl⟩
    · refine ⟨[], _, rfl, .inr rfl, s₁ ++ s₂, _, by simp, ?_, _, [], rfl, rfl, rfl⟩
      exact List.forall_mem_append.2 ⟨hs₁, hs₂⟩
    · rename_i type
      refine ⟨s₁ ++ ("->".toList ++ type), _, by simp, .inl ?_, s₂, _, rfl, hs₂, _, [], rfl, rfl,
        rfl⟩
      simp only [result, spells_all_cons, spells_all_nil, spells_literal, spells_run1,
        spells_space_iff]
      exact ⟨s₁, _, rfl, hs₁, _, type, rfl, rfl, [], type, rfl, by simp [Space], type, [], by simp,
        ⟨hne, spells_upTo htype⟩, rfl⟩

/-- What may stand between the lines in front of an item and `fn`. -/
def functionFront (between : Pattern) : List Pattern :=
  [leading, .maybe (visibilityWith between), qualifier "const", qualifier "async",
    qualifier "unsafe"]

theorem spells_functionFront_iff (between : Pattern) (word : Text) :
    (all (functionFront between)).Spells word ↔ FunctionFront between.Spells word := by
  simp only [functionFront, spells_all_cons, spells_all_nil, spells_leading_iff,
    spells_maybe_iff (spells_visibilityWith_iff between), spells_qualifier_iff]
  constructor
  · rintro ⟨lead, _, rfl, hlead, visibility, _, rfl, hvisibility, q₁, _, rfl, hq₁, q₂, _, rfl, hq₂,
      q₃, _, rfl, hq₃, rfl⟩
    have hfront := FunctionFront.front hlead hvisibility hq₁ hq₂ hq₃
    simpa using hfront
  · rintro ⟨hlead, hvisibility, hq₁, hq₂, hq₃⟩
    rename_i lead visibility q₁ q₂ q₃
    exact ⟨lead, _, by simp, hlead, visibility, _, rfl, hvisibility, q₁, _, rfl, hq₁, q₂, _, rfl,
      hq₂, q₃, [], rfl, hq₃, rfl⟩

theorem keyword_eq (name : String) : keyword name
    = [literal "fn".toList, gap, literal name.toList, space, .maybe generics, space, char '(',
      upTo ')', char ')'] ++ [.maybe result, space, char '{'] :=
  rfl

theorem spells_keyword_iff (name : String) (word : Text) :
    (all (keyword name)).Spells word ↔ Signature name word := by
  rw [keyword_eq, spells_all_append]
  simp only [spells_result_iff]
  simp only [spells_all_cons, spells_all_nil, spells_literal, spells_char, spells_gap_iff,
    spells_space_iff, spells_upTo_iff, spells_maybe_iff spells_generics_iff]
  constructor
  · rintro ⟨_, _, rfl, ⟨_, _, rfl, rfl, gap, _, rfl, hgap, _, _, rfl, rfl, s₁, _, rfl, hs₁,
      generics, _, rfl, hgenerics, s₂, _, rfl, hs₂, _, _, rfl, rfl, params, _, rfl, hparams, _, _,
      rfl, rfl, rfl⟩, s₃, arrow, s₄, hs₃, harrow, hs₄, rfl⟩
    have hsignature : Signature name _ :=
      .signature hgap hs₁ hgenerics hs₂ hparams hs₃ harrow hs₄
    simpa using hsignature
  · rintro ⟨hgap, hs₁, hgenerics, hs₂, hparams, hs₃, harrow, hs₄⟩
    rename_i gap s₁ generics s₂ params s₃ arrow s₄
    exact ⟨_, s₃ ++ arrow ++ s₄ ++ ['{'], by simp, ⟨"fn".toList, _, rfl, rfl, gap, _, rfl, hgap,
      name.toList, _, rfl, rfl, s₁, _, rfl, hs₁, generics, _, rfl, hgenerics, s₂, _, rfl, hs₂,
      ['('], _, rfl, rfl, params, _, rfl, hparams, [')'], [], rfl, rfl, rfl⟩, s₃, arrow, s₄, hs₃,
      harrow, hs₄, rfl⟩

/-- A struct in front of its keyword. -/
def structFront (between : Pattern) : List Pattern :=
  [leading, .maybe (visibilityWith between)]

theorem spells_structFront_iff (between : Pattern) (word : Text) :
    (all (structFront between)).Spells word ↔ StructFront between.Spells word := by
  simp only [structFront, spells_all_cons, spells_all_nil, spells_leading_iff,
    spells_maybe_iff (spells_visibilityWith_iff between)]
  constructor
  · rintro ⟨lead, _, rfl, hlead, visibility, _, rfl, hvisibility, rfl⟩
    rw [List.append_nil]
    exact .front hlead hvisibility
  · rintro ⟨hlead, hvisibility⟩
    rename_i lead visibility
    exact ⟨lead, visibility, rfl, hlead, visibility, [], by simp, hvisibility, rfl⟩

/-- A struct from its keyword on. -/
def structBody (name : String) : List Pattern :=
  [literal "struct".toList, gap, literal name.toList, space, .maybe generics, space, char '{',
    upTo '}', char '}']

theorem spells_structBody_iff (name : String) (word : Text) :
    (all (structBody name)).Spells word ↔ StructBody name word := by
  simp only [structBody, spells_all_cons, spells_all_nil, spells_literal, spells_char,
    spells_gap_iff, spells_space_iff, spells_upTo_iff, spells_maybe_iff spells_generics_iff]
  constructor
  · rintro ⟨_, _, rfl, rfl, gap, _, rfl, hgap, _, _, rfl, rfl, s₁, _, rfl, hs₁, generics, _, rfl,
      hgenerics, s₂, _, rfl, hs₂, _, _, rfl, rfl, fields, _, rfl, hfields, _, _, rfl, rfl, rfl⟩
    have hbody : StructBody name _ := .body hgap hs₁ hgenerics hs₂ hfields
    simpa using hbody
  · rintro ⟨hgap, hs₁, hgenerics, hs₂, hfields⟩
    rename_i gap s₁ generics s₂ fields
    exact ⟨"struct".toList, _, by simp, rfl, gap, _, rfl, hgap, name.toList, _, rfl, rfl, s₁, _,
      rfl, hs₁, generics, _, rfl, hgenerics, s₂, _, rfl, hs₂, ['{'], _, rfl, rfl, fields, _, rfl,
      hfields, ['}'], [], rfl, rfl, rfl⟩

/-! ## Definitions -/

/-- A function up to the brace that opens its body, with this pattern between `pub` and its
parenthesis. -/
def functionWith (between : Pattern) (name : String) : Pattern :=
  all (functionFront between ++ .wordEdge :: keyword name)

/-- A whole struct, with this pattern between `pub` and its parenthesis. -/
def structWith (between : Pattern) (name : String) : Pattern :=
  all (structFront between ++ .wordEdge :: structBody name)

theorem function_eq_functionWith (name : String) : function name = functionWith space name :=
  rfl

theorem struct_eq_structWith (name : String) : struct name = structWith space name :=
  rfl

theorem isPlain_visibilityWith {between : Pattern} (h : between.isPlain = true) :
    (visibilityWith between).isPlain = true := by
  rw [visibilityWith, isPlain_all]
  simp only [List.all_cons, isPlain_literal, isPlain, isPlain_all, h]
  rfl

theorem isPlain_functionFront {between : Pattern} (h : between.isPlain = true) :
    (all (functionFront between)).isPlain = true := by
  rw [functionFront, isPlain_all, List.all_cons, List.all_cons, isPlain, isPlain_visibilityWith h]
  rfl

theorem isPlain_structFront {between : Pattern} (h : between.isPlain = true) :
    (all (structFront between)).isPlain = true := by
  rw [structFront, isPlain_all, List.all_cons, List.all_cons, isPlain, isPlain_visibilityWith h]
  rfl

theorem isPlain_keyword (name : String) : (all (keyword name)).isPlain = true := by
  rw [keyword, isPlain_all]
  simp only [List.all_cons, isPlain_literal]
  rfl

theorem isPlain_structBody (name : String) : (all (structBody name)).isPlain = true := by
  rw [structBody, isPlain_all]
  simp only [List.all_cons, isPlain_literal]
  rfl

/-- The shape of a function passes the heads of the grammar. -/
theorem describes_functionWith {between : Pattern} (hplain : between.isPlain = true)
    (name : String) :
    (functionWith between name).Describes (FunctionHead between.Spells name) := by
  have hfront : (all (functionFront between)).Spells = FunctionFront between.Spells :=
    funext fun word => propext (spells_functionFront_iff between word)
  have hrest : (all (keyword name)).Spells = Signature name :=
    funext fun word => propext (spells_keyword_iff name word)
  rw [FunctionHead, ← hfront, ← hrest]
  refine describes_edge (isPlain_functionFront hplain) (isPlain_keyword name) ?_
  intro word hword
  rw [hrest] at hword
  cases hword
  rfl

/-- The shape of a struct passes the structs of the grammar. -/
theorem describes_structWith {between : Pattern} (hplain : between.isPlain = true)
    (name : String) :
    (structWith between name).Describes (StructItem between.Spells name) := by
  have hfront : (all (structFront between)).Spells = StructFront between.Spells :=
    funext fun word => propext (spells_structFront_iff between word)
  have hrest : (all (structBody name)).Spells = StructBody name :=
    funext fun word => propext (spells_structBody_iff name word)
  rw [StructItem, ← hfront, ← hrest]
  refine describes_edge (isPlain_structFront hplain) (isPlain_structBody name) ?_
  intro word hword
  rw [hrest] at hword
  cases hword
  rfl

theorem describes_function (name : String) :
    (function name).Describes (FunctionHead Space name) := by
  rw [function_eq_functionWith]
  exact describes_functionWith rfl name

theorem describes_struct (name : String) :
    (struct name).Describes (StructItem Space name) := by
  rw [struct_eq_structWith]
  exact describes_structWith rfl name

end Shape

end Carver
