import Carver.Definition.Locate
import Carver.Proofs.Delimited

/-!
# Where definitions are found

A definition is located at the first place of the text at which one stands, as the grammar has it,
and at no place exactly if there is none (`locate_eq_some_iff_isFirst`). The shapes describe the
grammar, so a match is a word of it. A search tries the places from left to right and at each place
every way to match, so no word that begins further left is missed. For a struct the end is told as
well, because structs are delimited.

White space may stand between `pub` and its parenthesis: under the rules that allow nothing there,
the located place is not the first one (`locate_ne_isFirst`).
-/

namespace Carver

namespace Grammar

/-- The span holds a word of the form, given what stands before it. -/
def Spans (form : Text → Text → Prop) (text : Text) (span : Span) : Prop :=
  ∃ before word after : Text, text = before ++ word ++ after ∧ form before word ∧
    span = ⟨Text.size before, Text.size (before ++ word)⟩

/-- The span holds a word of the form, and no such word begins further left. -/
def IsFirst (form : Text → Text → Prop) (text : Text) (span : Span) : Prop :=
  Spans form text span ∧ ∀ other, Spans form text other → span.start ≤ other.start

variable {form : Text → Text → Prop} {text : Text}

theorem IsFirst.start_eq {span other : Span} (h : IsFirst form text span)
    (hother : IsFirst form text other) : span.start = other.start :=
  Nat.le_antisymm (h.2 other hother.1) (hother.2 span h.1)

/-- If words tell where they end, a first word is the only one. -/
theorem IsFirst.unique (hform : ∀ before, Text.Delimited (form before)) {span other : Span}
    (h : IsFirst form text span) (hother : IsFirst form text other) : span = other := by
  have hstart := h.start_eq hother
  obtain ⟨⟨before, word, after, htext, hword, rfl⟩, _⟩ := h
  obtain ⟨⟨before', word', after', htext', hword', rfl⟩, _⟩ := hother
  change Text.size before = Text.size before' at hstart
  have hsame : before ++ word ++ after = before' ++ word' ++ after' := htext.symm.trans htext'
  rw [List.append_assoc, List.append_assoc] at hsame
  obtain ⟨rfl, hrest⟩ := Text.append_inj_of_size hsame hstart
  rw [hform before word word' after after' hword hword' hrest]

end Grammar

namespace Pattern

open Grammar (Spans IsFirst)

variable {p : Pattern} {form : Text → Text → Prop} {text : Text}

/-- Where something is derived, something is found that begins no later. -/
theorem exists_find?_of_derives {before rest : Text} {d : Cursor}
    (h : Derives p ⟨before.reverse, rest⟩ d) :
    ∃ hit, p.find? (before ++ rest) = some hit ∧ hit.start.offset ≤ Text.size before := by
  -- by induction on the length of what stands before: go left as long as something is derived there
  induction hlength : before.length using Nat.strongRecOn generalizing before rest d with
  | ind length ih =>
    by_cases hleft : ∃ u v : Text, before = u ++ v ∧ v ≠ [] ∧
        ∃ d, Derives p ⟨u.reverse, v ++ rest⟩ d
    · obtain ⟨u, v, rfl, hv, d, hd⟩ := hleft
      have hshorter : u.length < length := by
        have hpos := List.length_pos_iff.2 hv
        rw [List.length_append] at hlength
        omega
      obtain ⟨hit, hfind, hstart⟩ := ih _ hshorter hd rfl
      refine ⟨hit, by rwa [List.append_assoc], ?_⟩
      rw [Text.size_append]
      omega
    · obtain ⟨stop, hfind⟩ := exists_find?_of_leftmost h fun u v hsplit hv d hd =>
        hleft ⟨u, v, hsplit, hv, d, hd⟩
      exact ⟨_, hfind, Nat.le_of_eq (Text.size_reverse before)⟩

namespace Describes

/-- A match is a word of the form. -/
theorem spans_of_find? (hp : p.Describes form) {hit : Hit} (h : p.find? text = some hit) :
    Spans form text hit.span := by
  obtain ⟨hmem, hderives⟩ := derives_of_find? h
  obtain ⟨⟨behind, ahead⟩, ⟨behind', after⟩⟩ := hit
  obtain ⟨before, htext, hbehind⟩ := Cursor.mem_onward_iff.1 hmem
  obtain ⟨word, _, hahead, hstop⟩ := hderives.exists_spells
  simp only [List.append_nil] at htext hbehind hahead hstop
  subst hbehind hahead hstop
  refine ⟨before, word, after, by rw [htext, List.append_assoc], (hp before word after).1 hderives,
    ?_⟩
  simp only [Hit.span, Cursor.offset, Text.size_append, Text.size_reverse, Nat.add_comm]

/-- A word of the form is found, unless something else begins further left. -/
theorem exists_find?_of_spans (hp : p.Describes form) {span : Span} (h : Spans form text span) :
    ∃ hit, p.find? text = some hit ∧ hit.span.start ≤ span.start := by
  obtain ⟨before, word, after, rfl, hword, rfl⟩ := h
  rw [List.append_assoc]
  exact exists_find?_of_derives ((hp before word after).2 hword)

/-- What is found is a first word of the form. -/
theorem isFirst_of_find? (hp : p.Describes form) {hit : Hit} (h : p.find? text = some hit) :
    IsFirst form text hit.span := by
  refine ⟨hp.spans_of_find? h, fun other hother => ?_⟩
  obtain ⟨found, hfound, hstart⟩ := hp.exists_find?_of_spans hother
  rw [h, Option.some.injEq] at hfound
  rwa [hfound]

theorem find?_eq_none_iff_not_spans (hp : p.Describes form) :
    p.find? text = none ↔ ∀ span, ¬ Spans form text span := by
  constructor
  · intro hnone span hspan
    obtain ⟨hit, hfind, _⟩ := hp.exists_find?_of_spans hspan
    rw [hnone] at hfind
    cases hfind
  · intro hnot
    cases hfind : p.find? text with
    | none => rfl
    | some hit => exact absurd (hp.spans_of_find? hfind) (hnot hit.span)

/-- The start of the match is the first place of a word. -/
theorem start_eq_some_iff (hp : p.Describes form) (start : Nat) :
    (p.find? text).map (·.span.start) = some start ↔ ∃ stop, IsFirst form text ⟨start, stop⟩ := by
  rw [Option.map_eq_some_iff]
  constructor
  · rintro ⟨hit, hfind, rfl⟩
    exact ⟨hit.span.stop, hp.isFirst_of_find? hfind⟩
  · rintro ⟨stop, hfirst⟩
    obtain ⟨hit, hfind, _⟩ := hp.exists_find?_of_spans hfirst.1
    exact ⟨hit, hfind, (hp.isFirst_of_find? hfind).start_eq hfirst⟩

/-- If words tell where they end, the match is the first word. -/
theorem span_eq_some_iff (hp : p.Describes form) (hform : ∀ before, Text.Delimited (form before))
    (span : Span) : (p.find? text).map (·.span) = some span ↔ IsFirst form text span := by
  rw [Option.map_eq_some_iff]
  constructor
  · rintro ⟨hit, hfind, rfl⟩
    exact hp.isFirst_of_find? hfind
  · intro hfirst
    obtain ⟨hit, hfind, _⟩ := hp.exists_find?_of_spans hfirst.1
    exact ⟨hit, hfind, (hp.isFirst_of_find? hfind).unique hform hfirst⟩

end Describes

end Pattern

open Grammar

theorem locate_function_eq (text : Text) (name : String) :
    locate text ⟨.function, name⟩ = ((Shape.function name).find? text).map (·.span.start) := by
  rw [locate, locateFunction, Option.map_map]
  rfl

/-- Functions are located at the first place where the grammar has the head of one, structs at the
first place where it has one, and nothing is located exactly if there is no such place. -/
theorem locate_eq_some_iff_isFirst (text : Text) (name : String) :
    (∀ start, locate text ⟨.function, name⟩ = some start
      ↔ ∃ stop, IsFirst (FunctionHead Space name) text ⟨start, stop⟩) ∧
    (locate text ⟨.function, name⟩ = none
      ↔ ∀ span, ¬ Spans (FunctionHead Space name) text span) ∧
    (∀ span, locateStruct text name = some span
      ↔ IsFirst (StructItem Space name) text span) ∧
    (locateStruct text name = none ↔ ∀ span, ¬ Spans (StructItem Space name) text span) := by
  have hfunction := Shape.describes_function name
  have hstruct := Shape.describes_struct name
  rw [locate_function_eq, locateStruct]
  refine ⟨hfunction.start_eq_some_iff, ?_, hstruct.span_eq_some_iff (Shape.delimited_struct name),
    ?_⟩
  · rw [Option.map_eq_none_iff, hfunction.find?_eq_none_iff_not_spans]
  · rw [Option.map_eq_none_iff, hstruct.find?_eq_none_iff_not_spans]

/-- White space in front of the scope of a `pub` belongs to the definition: if the grammar had
nothing there, the first head would be located further right than it is. -/
theorem locate_ne_isFirst :
    Identifier.isUsable "foo" = true ∧
    locate "pub (crate) fn foo() {}".toList ⟨.function, "foo"⟩ = some 0 ∧
    IsFirst (FunctionHead (· = []) "foo") "pub (crate) fn foo() {}".toList ⟨11, 22⟩ ∧
    ¬ ∃ stop, IsFirst (FunctionHead (· = []) "foo") "pub (crate) fn foo() {}".toList ⟨0, stop⟩ := by
  have hfind : ((Shape.functionWith .nothing "foo").find?
      "pub (crate) fn foo() {}".toList).map (·.span) = some ⟨11, 22⟩ := by
    decide +kernel
  obtain ⟨hit, hhit, hspan⟩ := Option.map_eq_some_iff.1 hfind
  have hfirst := (Shape.describes_functionWith rfl "foo").isFirst_of_find? hhit
  rw [hspan] at hfirst
  refine ⟨by decide +kernel, by decide +kernel, hfirst, ?_⟩
  rintro ⟨stop, hother⟩
  exact absurd (hfirst.start_eq hother) (Nat.succ_ne_zero 10)

end Carver
