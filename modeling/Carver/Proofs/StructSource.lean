import Carver.Proofs.Delimited

/-!
# Sources made of a struct and impl blocks

A source is a row of blocks of one name with gaps between them: at most one struct, and impl blocks.
`StructSource.WellFormed` bounds what may stand where. The keyword of structs may be part of the
name, but it begins no word there, so a text without the struct is passed by a search for the
keyword (`Text.Passed`), and the first keyword is that of the struct (`passed_above`).
-/

namespace Carver

namespace Text

/-! ## Words in texts -/

/-- The word stands nowhere in the text. -/
def Lacks (text word : Text) : Prop :=
  ¬ word <:+: text

instance (text word : Text) : Decidable (text.Lacks word) :=
  inferInstanceAs (Decidable (¬ _))

/-- A word in two joined texts lies in the second one, if the first one lacks it and does not end in
a character of it. -/
theorem Lacks.skip {word x y front back : Text} (hx : x.Lacks word)
    (hlast : ∀ z ∈ x.getLast?, z ∉ word) (h : x ++ y = front ++ word ++ back) :
    ∃ front', front = x ++ front' ∧ y = front' ++ word ++ back := by
  rw [List.append_assoc] at h
  rcases List.append_eq_append_iff.1 h with ⟨front', rfl, hy⟩ | ⟨mid, rfl, hmid⟩
  · exact ⟨front', rfl, by rw [hy, List.append_assoc]⟩
  · rcases List.eq_nil_or_concat mid with rfl | ⟨init, z, rfl⟩
    · exact ⟨[], by simp, by simpa using hmid.symm⟩
    rw [List.concat_eq_append] at hx hlast hmid
    -- the last character of the first text is one of the word, or the word ends before it
    rcases List.append_eq_append_iff.1 hmid with ⟨more, hmore, _⟩ | ⟨more, hmore, _⟩
    · exact absurd ⟨front, more, by rw [hmore, List.append_assoc]⟩ hx
    · have hz : z ∉ word := hlast z (by simp)
      rw [hmore] at hz
      exact absurd (by simp) hz

/-- A character that the first text has not lies in the second one. -/
theorem skip_of_not_mem {x y front back : Text} {d : Char} (hd : d ∉ x)
    (h : x ++ y = front ++ d :: back) :
    ∃ front', front = x ++ front' ∧ y = front' ++ d :: back := by
  rcases List.append_eq_append_iff.1 h with ⟨front', rfl, hy⟩ | ⟨mid, rfl, hmid⟩
  · exact ⟨front', rfl, hy⟩
  · rcases mid with _ | ⟨z, mid⟩
    · exact ⟨[], by simp, hmid.symm⟩
    · rw [(List.cons.inj hmid).1] at hd
      exact absurd (by simp) hd

/-- A word lies on one side of a character that it has not. -/
theorem lacks_append_cons {word x y : Text} {d : Char} (hd : d ∉ word) (hx : x.Lacks word)
    (hy : y.Lacks word) : Lacks (x ++ d :: y) word := by
  have hnil : word ≠ [] := by
    rintro rfl
    exact hx (List.nil_infix)
  intro h
  rcases List.infix_append_iff.1 h with h | h | ⟨l, r, rfl, hl, hr⟩
  · exact hx h
  · rcases List.infix_cons_iff.1 h with h | h
    · rcases List.prefix_cons_iff.1 h with h | ⟨t, rfl, _⟩
      · exact hnil h
      · exact hd List.mem_cons_self
    · exact hy h
  · rcases List.prefix_cons_iff.1 hr with rfl | ⟨t, rfl, _⟩
    · rw [List.append_nil] at hx
      exact hx hl.isInfix
    · exact hd (List.mem_append_right _ List.mem_cons_self)

/-! ## The keyword of structs -/

/-- The keyword of structs. -/
def structWord : Text :=
  ['s', 't', 'r', 'u', 'c', 't']

/-- The keyword of impl blocks. -/
def implWord : Text :=
  ['i', 'm', 'p', 'l']

/-- In every text that begins with this one, whatever stands in front, a keyword of structs that
begins a word and has a blank behind it lies behind the beginning. -/
def Passed (x : Text) : Prop :=
  ∀ before front back y c, isBlank c = true → Grammar.AtWordStart (before ++ front) →
    x ++ y = front ++ structWord ++ c :: back →
    ∃ front', front = x ++ front' ∧ y = front' ++ structWord ++ c :: back

theorem passed_nil : Passed [] :=
  fun _ front _ _ _ _ _ h => ⟨front, rfl, h⟩

theorem Passed.append {x x' : Text} (hx : Passed x) (hx' : Passed x') : Passed (x ++ x') := by
  intro before front back y c hc hstart h
  rw [List.append_assoc] at h
  obtain ⟨front₁, rfl, h₁⟩ := hx before front back _ c hc hstart h
  rw [← List.append_assoc] at hstart
  obtain ⟨front₂, rfl, h₂⟩ := hx' (before ++ x) front₁ back y c hc hstart h₁
  exact ⟨front₂, (List.append_assoc _ _ _).symm, h₂⟩

theorem passed_flatMap {α : Type} {f : α → Text} {parts : List α}
    (h : ∀ part ∈ parts, Passed (f part)) : Passed (parts.flatMap f) := by
  induction parts with
  | nil => exact passed_nil
  | cons part parts ih =>
    rw [List.forall_mem_cons] at h
    rw [List.flatMap_cons]
    exact h.1.append (ih h.2)

theorem Lacks.passed {x : Text} (h : x.Lacks structWord)
    (hlast : ∀ z ∈ x.getLast?, z ∉ structWord) : Passed x :=
  fun _ _ _ _ _ _ _ heq => h.skip hlast heq

/-- In a name the keyword begins no word, unless it is the name. -/
theorem passed_name {name : String} (hname : Identifier.isUsable name = true) :
    Passed (name.toList ++ [' ']) := by
  intro before front back y c hc hstart h
  obtain ⟨_, htails⟩ := Identifier.isTail_of_isUsable hname
  rw [List.append_assoc, List.append_assoc] at h
  rcases List.append_eq_append_iff.1 h with ⟨front', rfl, hy⟩ | ⟨mid, hmid, hy⟩
  · rcases front' with _ | ⟨d, front'⟩
    · exact absurd (List.cons.inj hy).1 (by decide)
    · simp only [List.cons_append, List.nil_append, List.cons.injEq] at hy
      obtain ⟨rfl, rfl⟩ := hy
      exact ⟨front', by simp, by simp⟩
  -- the keyword ends in front of the blank, so it ends the name
  · have hvisible : ∀ z ∈ mid, (!isBlank z) = true := by
      intro z hz
      have hmem : z ∈ name.toList := by simp [hmid, hz]
      rw [Identifier.isBlank_eq_false (htails z hmem)]
      rfl
    have hword : ∀ z ∈ structWord, (!isBlank z) = true := List.all_eq_true.1 (by decide)
    obtain ⟨rfl, _⟩ := append_cons_inj_of_run hy hword hvisible (by simp [hc]) rfl
    rcases List.eq_nil_or_concat front with rfl | ⟨init, z, rfl⟩
    · have hkeyword : name = "struct" := String.toList_inj.1 hmid
      rw [hkeyword] at hname
      exact absurd hname (by decide)
    · rw [List.concat_eq_append] at hmid hstart
      have hz : isWord z = true := Identifier.isWord_of_isTail (htails z (by simp [hmid]))
      rw [Grammar.AtWordStart, ← List.append_assoc, List.getLast?_concat, isWordAt, hz] at hstart
      cases hstart

end Text

/-! ## Blocks -/

/-- A struct of the name as it stands behind the scope of its `pub`, up to a place inside its
generics. -/
def Shape.structBegun (name : String) : List Pattern :=
  [gap, .literal "struct".toList, gap, .literal name.toList, space, .char '<', upTo '>']

/-- A block of a name: its struct, with or without `pub`, by the text of its fields, or an impl
block by the text of its body. -/
inductive StructPart where
  | definition (isPublic : Bool) (fields : Text)
  | impl (body : Text)
  deriving DecidableEq, Repr

namespace StructPart

/-- What stands in front of the keyword of a struct. -/
def visibility (isPublic : Bool) : Text :=
  if isPublic then ['p', 'u', 'b', ' '] else []

/-- The text of the block. -/
def text (name : String) : StructPart → Text
  | .definition isPublic fields =>
    visibility isPublic ++ (Text.structWord ++ ' ' :: name.toList ++ ' ' :: '{' :: fields ++ ['}'])
  | .impl body => Text.implWord ++ ' ' :: name.toList ++ ' ' :: '{' :: body ++ ['\n', '}']

/-- Whether the block is the struct. -/
def isDefinition : StructPart → Bool
  | .definition _ _ => true
  | .impl _ => false

/-- The fields of a struct have no braces, and the body of an impl block has neither the keyword of
structs nor a line that begins with a closing brace. -/
def WellFormed : StructPart → Prop
  | .definition _ fields => '{' ∉ fields ∧ '}' ∉ fields
  | .impl body => body.Lacks ['\n', '}'] ∧ body.Lacks Text.structWord

instance : (part : StructPart) → Decidable part.WellFormed
  | .definition _ _ => inferInstanceAs (Decidable (_ ∧ _))
  | .impl _ => inferInstanceAs (Decidable (_ ∧ _))

/-- Whether the scope of a `pub` that opens above the block could close in the fields of the struct:
what stands behind the first closing parenthesis reads as a struct of the name with generics. -/
def isExposed (name : String) : StructPart → Bool
  | .definition _ fields => fields.behindParen?.any (Pattern.all (Shape.structBegun name)).takes
  | .impl _ => false

theorem passed_visibility (isPublic : Bool) : (visibility isPublic).Passed := by
  cases isPublic with
  | false => exact Text.passed_nil
  | true =>
    refine Text.Lacks.passed (by decide) fun z hz => ?_
    obtain rfl := Option.some.inj hz
    decide

/-- An impl block is passed. -/
theorem passed_impl {name : String} (hname : Identifier.isUsable name = true) {body : Text}
    (hbody : body.Lacks Text.structWord) : Text.Passed (text name (.impl body)) := by
  have htext : text name (.impl body) = (Text.implWord ++ [' ']) ++ ((name.toList ++ [' '])
      ++ ('{' :: (body ++ '\n' :: ['}']))) := by
    simp [text]
  have hkeyword : Text.Passed (Text.implWord ++ [' ']) :=
    Text.Lacks.passed (by decide) fun z hz => by
      obtain rfl := Option.some.inj hz
      decide
  have hback : Text.Lacks ('{' :: (body ++ '\n' :: ['}'])) Text.structWord :=
    Text.lacks_append_cons (by decide) (by decide : Text.Lacks [] Text.structWord)
      (Text.lacks_append_cons (by decide) hbody (by decide))
  have hlast : ∀ z ∈ ('{' :: (body ++ '\n' :: ['}'])).getLast?, z ∉ Text.structWord := by
    intro z hz
    rw [← List.cons_append, List.getLast?_append_cons] at hz
    obtain rfl := Option.some.inj hz
    decide
  rw [htext]
  exact hkeyword.append ((Text.passed_name hname).append (hback.passed hlast))

theorem getLast?_text (name : String) (part : StructPart) :
    (part.text name).getLast? = some '}' := by
  cases part with
  | definition isPublic fields => rw [text, ← List.append_assoc, List.getLast?_concat]
  | impl body =>
    rw [text, List.getLast?_append]
    rfl

theorem endsItem_text (name : String) (part : StructPart) : (part.text name).endsItem = true := by
  obtain ⟨init, hinit⟩ := List.getLast?_eq_some_iff.1 (getLast?_text name part)
  rw [hinit, Text.endsItem, List.reverse_append]
  rfl

end StructPart

/-! ## Sources -/

/-- Whether the gap can stand above a block: it ends an item, and then a paragraph. -/
def Text.Separates (gap : Text) : Prop :=
  ['\n', '\n'] <:+ gap ∧ gap.endsItem = true

instance (gap : Text) : Decidable gap.Separates :=
  inferInstanceAs (Decidable (_ ∧ _))

/-- A gap, and then blocks of a name, each with the gap behind it. -/
structure StructSource where
  name : String
  head : Text
  rest : List (StructPart × Text)
  deriving DecidableEq, Repr

namespace StructSource

/-- A block and the gap behind it. -/
def part (name : String) (pair : StructPart × Text) : Text :=
  pair.1.text name ++ pair.2

/-- The whole text. -/
def text (source : StructSource) : Text :=
  source.head ++ source.rest.flatMap (part source.name)

/-- A block that is left without the struct, and the gap behind it. -/
def partLeft (name : String) (pair : StructPart × Text) : Text :=
  if pair.1.isDefinition then pair.2 else part name pair

/-- The texts of the impl blocks in order. -/
def implTexts (name : String) (pairs : List (StructPart × Text)) : List Text :=
  (pairs.filter (!·.1.isDefinition)).map (·.1.text name)

/-- The text of the struct, if there is one. -/
def definition? (source : StructSource) : Option Text :=
  (source.rest.find? (·.1.isDefinition)).map (·.1.text source.name)

/-- The gaps in order. -/
def gaps (source : StructSource) : List Text :=
  source.head :: source.rest.map (·.2)

/-- The name is usable; there is a block, and at most one is the struct; no gap has the keyword of
structs or of impl blocks; each gap above a block separates it, and only the first one may be empty;
a gap below an impl block begins with a line feed, if it is not empty. -/
structure WellFormed (source : StructSource) : Prop where
  name : Identifier.isUsable source.name = true
  nonempty : source.rest ≠ []
  parts : ∀ pair ∈ source.rest, pair.1.WellFormed
  single : (source.rest.filter (·.1.isDefinition)).length ≤ 1
  lacks : ∀ gap ∈ source.gaps, gap.Lacks Text.structWord ∧ gap.Lacks Text.implWord
  first : source.head = [] ∨ source.head.Separates
  between : ∀ gap ∈ (source.rest.map (·.2)).dropLast, gap.Separates
  below : ∀ pair ∈ source.rest, pair.1.isDefinition = false → pair.2.head?.all (· == '\n') = true

instance (source : StructSource) : Decidable source.WellFormed :=
  decidable_of_iff
    (Identifier.isUsable source.name = true ∧ source.rest ≠ [] ∧
      (∀ pair ∈ source.rest, pair.1.WellFormed) ∧
      (source.rest.filter (·.1.isDefinition)).length ≤ 1 ∧
      (∀ gap ∈ source.gaps, gap.Lacks Text.structWord ∧ gap.Lacks Text.implWord) ∧
      (source.head = [] ∨ source.head.Separates) ∧
      (∀ gap ∈ (source.rest.map (·.2)).dropLast, gap.Separates) ∧
      ∀ pair ∈ source.rest, pair.1.isDefinition = false → pair.2.head?.all (· == '\n') = true)
    ⟨fun ⟨hname, hnonempty, hparts, hsingle, hlacks, hfirst, hbetween, hbelow⟩ =>
        ⟨hname, hnonempty, hparts, hsingle, hlacks, hfirst, hbetween, hbelow⟩,
      fun h => ⟨h.name, h.nonempty, h.parts, h.single, h.lacks, h.first, h.between, h.below⟩⟩

/-- What stands above a block. -/
def above (source : StructSource) (before : List (StructPart × Text)) : Text :=
  source.head ++ before.flatMap (part source.name)

/-- Above a struct in whose fields the scope of a `pub` could close, every such scope is closed. -/
def Guarded (source : StructSource) : Prop :=
  ∀ i : Fin source.rest.length, (source.rest.get i).1.isExposed source.name = true →
    (source.above (source.rest.take i)).ClosesPub

instance (source : StructSource) : Decidable source.Guarded :=
  inferInstanceAs (Decidable (∀ _ : Fin source.rest.length, _))

/-! ## Above a block and below it -/

theorem exists_body_of_isDefinition {block : StructPart} (h : block.isDefinition = false) :
    ∃ body, block = .impl body := by
  cases block with
  | definition isPublic fields => cases h
  | impl body => exact ⟨body, rfl⟩

/-- A gap that can stand above a block is passed. -/
theorem passed_gap {gap : Text} (hlacks : gap.Lacks Text.structWord) (hgap : gap.Separates) :
    gap.Passed := by
  obtain ⟨⟨front, rfl⟩, _⟩ := hgap
  refine hlacks.passed ?_
  rw [List.getLast?_append]
  exact fun z hz => by rw [← Option.some.inj hz]; decide

/-- All gaps but the last one: the first one, if there are others, and all others but the last. -/
theorem forall_dropLast_cons {p : Text → Prop} {first : Text} {others : List Text}
    (h : ∀ gap ∈ (first :: others).dropLast, p gap) :
    (others ≠ [] → p first) ∧ ∀ gap ∈ others.dropLast, p gap := by
  cases others with
  | nil => exact ⟨fun hne => absurd rfl hne, by simp⟩
  | cons second others =>
    rw [List.dropLast_cons_of_ne_nil (List.cons_ne_nil _ _), List.forall_mem_cons] at h
    exact ⟨fun _ => h.1, h.2⟩

/-- Impl blocks and the gaps behind them are passed, up to the last gap. -/
theorem not_keyword_of_impls {name : String} (hname : Identifier.isUsable name = true)
    {gap before : Text} {pairs : List (StructPart × Text)}
    (hparts : ∀ pair ∈ pairs, pair.1.isDefinition = false ∧ pair.1.WellFormed)
    (hlacks : ∀ g ∈ gap :: pairs.map (·.2), g.Lacks Text.structWord)
    (hgap : pairs ≠ [] → gap = [] ∨ gap.Separates)
    (hbetween : ∀ g ∈ (pairs.map (·.2)).dropLast, g.Separates) {front back : Text} {c : Char}
    (hc : Text.isBlank c = true) (hstart : Grammar.AtWordStart (before ++ front)) :
    gap ++ pairs.flatMap (part name) ≠ front ++ Text.structWord ++ c :: back := by
  intro h
  induction pairs generalizing gap before front with
  | nil =>
    rw [List.flatMap_nil, List.append_nil] at h
    exact hlacks gap List.mem_cons_self ⟨front, c :: back, h.symm⟩
  | cons pair pairs ih =>
    obtain ⟨block, below⟩ := pair
    rw [List.forall_mem_cons] at hparts hlacks
    have hpassed : gap.Passed := by
      rcases hgap (List.cons_ne_nil _ _) with rfl | hgap
      · exact Text.passed_nil
      · exact passed_gap hlacks.1 hgap
    obtain ⟨body, rfl⟩ := exists_body_of_isDefinition hparts.1.1
    rw [List.flatMap_cons, part, ← List.append_assoc, ← List.append_assoc, List.append_assoc] at h
    obtain ⟨front', rfl, h'⟩ := (hpassed.append (StructPart.passed_impl hname hparts.1.2.2))
      before front back _ c hc hstart h
    rw [← List.append_assoc] at hstart
    obtain ⟨hbelow, hbetween⟩ := forall_dropLast_cons hbetween
    exact ih hparts.2 hlacks.2 (fun hne => .inr (hbelow (by simpa using hne))) hbetween hstart h'

variable {source : StructSource} {before after : List (StructPart × Text)} {block : StructPart}
  {gap : Text}

/-- There are impl blocks alone, or one struct and impl blocks around it. -/
theorem definition_cases (h : source.WellFormed) :
    (∀ pair ∈ source.rest, pair.1.isDefinition = false) ∨
    ∃ before isPublic fields gap after,
      source.rest = before ++ (.definition isPublic fields, gap) :: after ∧
      ∀ pair ∈ before ++ after, pair.1.isDefinition = false := by
  by_cases hnone : ∀ pair ∈ source.rest, pair.1.isDefinition = false
  · exact .inl hnone
  · simp only [not_forall, Bool.not_eq_false] at hnone
    obtain ⟨⟨block, gap⟩, hmem, hblock⟩ := hnone
    obtain ⟨before, after, hrest⟩ := List.append_of_mem hmem
    obtain ⟨isPublic, fields, rfl⟩ : ∃ isPublic fields, block = .definition isPublic fields := by
      cases block with
      | definition isPublic fields => exact ⟨isPublic, fields, rfl⟩
      | impl body => cases hblock
    refine .inr ⟨before, isPublic, fields, gap, after, hrest, ?_⟩
    have hsingle := h.single
    rw [hrest, List.filter_append, List.filter_cons_of_pos rfl, List.length_append,
      List.length_cons] at hsingle
    have hbefore : before.filter (·.1.isDefinition) = [] :=
      List.eq_nil_of_length_eq_zero (by omega)
    have hafter : after.filter (·.1.isDefinition) = [] :=
      List.eq_nil_of_length_eq_zero (by omega)
    simp only [List.filter_eq_nil_iff, Bool.not_eq_true] at hbefore hafter
    exact List.forall_mem_append.2 ⟨hbefore, hafter⟩

section

variable (h : source.WellFormed) (hrest : source.rest = before ++ (block, gap) :: after)

include h hrest

/-- The gaps above a block separate what they stand between. -/
theorem separates_of_mem : ∀ pair ∈ before, pair.2.Separates := by
  intro pair hpair
  refine h.between pair.2 ?_
  rw [hrest, List.map_append, List.dropLast_append_of_ne_nil (by simp)]
  exact List.mem_append_left _ (List.mem_map_of_mem hpair)

/-- What stands above a block ends an item. -/
theorem endsItem_above : (source.above before).endsItem = true := by
  refine Text.endsItem_append ?_ (Text.endsItem_flatMap fun pair hpair => ?_)
  · rcases h.first with hhead | hhead
    · rw [hhead]
      rfl
    · exact hhead.2
  · exact Text.endsItem_append (pair.1.endsItem_text _) (separates_of_mem h hrest pair hpair).2

/-- What stands above a block is nothing, or ends a paragraph. -/
theorem paragraph_above : source.above before = [] ∨ ['\n', '\n'] <:+ source.above before := by
  rcases List.eq_nil_or_concat before with rfl | ⟨front, pair, rfl⟩
  · rw [above, List.flatMap_nil, List.append_nil]
    exact h.first.imp_right (·.1)
  · have hgap := (separates_of_mem h hrest pair (by simp)).1
    rw [above, List.concat_eq_append, List.flatMap_append, List.flatMap_singleton,
      ← List.append_assoc, part, ← List.append_assoc]
    exact .inr (hgap.trans (List.suffix_append _ _))

/-- Impl blocks above a block are passed. -/
theorem passed_above (himpls : ∀ pair ∈ before, pair.1.isDefinition = false) :
    (source.above before).Passed := by
  have hlacks := h.lacks
  rw [gaps, List.forall_mem_cons, List.forall_mem_map] at hlacks
  refine Text.Passed.append ?_ (Text.passed_flatMap fun pair hpair => ?_)
  · rcases h.first with hhead | hhead
    · rw [hhead]
      exact Text.passed_nil
    · exact passed_gap hlacks.1.1 hhead
  · have hmem : pair ∈ source.rest := by simp [hrest, hpair]
    obtain ⟨body, hbody⟩ := exists_body_of_isDefinition (himpls pair hpair)
    have hparts := h.parts pair hmem
    rw [hbody] at hparts
    rw [part, hbody]
    exact (StructPart.passed_impl h.name hparts.2).append
      (passed_gap (hlacks.2 pair hmem).1 (separates_of_mem h hrest pair hpair))

/-- Below a block, among impl blocks, there is no keyword. -/
theorem not_keyword_below (himpls : ∀ pair ∈ after, pair.1.isDefinition = false)
    {front back upper : Text} {c : Char} (hc : Text.isBlank c = true)
    (hstart : Grammar.AtWordStart (upper ++ front)) :
    gap ++ after.flatMap (part source.name) ≠ front ++ Text.structWord ++ c :: back := by
  have hlacks := h.lacks
  rw [gaps, List.forall_mem_cons, List.forall_mem_map] at hlacks
  have hbetween := h.between
  rw [hrest, List.map_append, List.dropLast_append_of_ne_nil (by simp),
    List.forall_mem_append] at hbetween
  obtain ⟨hgap, hbetween⟩ := forall_dropLast_cons hbetween.2
  refine not_keyword_of_impls h.name (fun pair hpair => ?_) ?_
    (fun hne => .inr (hgap (by simpa using hne))) hbetween hc hstart
  · exact ⟨himpls pair hpair, h.parts pair (by simp [hrest, hpair])⟩
  · rw [List.forall_mem_cons, List.forall_mem_map]
    exact ⟨(hlacks.2 (block, gap) (by simp [hrest])).1,
      fun pair hpair => (hlacks.2 pair (by simp [hrest, hpair])).1⟩

end

end StructSource

end Carver
