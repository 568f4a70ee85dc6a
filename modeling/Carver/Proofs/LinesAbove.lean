import Carver.Proofs.ExactLocation

/-!
# What stands above a definition

The lines that belong to a definition are its documentation and then its attributes. A definition is
located where the first match starts, so no line that could still be one of them stands above: no
documentation at all, and an attribute only if documentation comes next (`locate_above`). There the
attribute is left behind, since attributes are looked for below the documentation alone.
-/

namespace Carver

namespace Grammar

/-! ## One more line -/

/-- The words of the form begin with the lines in front of an item, which can be any such lines. -/
def Led (front : Text → Prop) : Prop :=
  ∀ word, front word → ∃ lead rest, word = lead ++ rest ∧ Leading lead ∧
    ∀ other, Leading other → front (other ++ rest)

theorem led_functionFront (between : Text → Prop) : Led (FunctionFront between) := by
  rintro _ ⟨hlead, hvisibility, hq₁, hq₂, hq₃⟩
  rename_i lead visibility q₁ q₂ q₃
  refine ⟨lead, visibility ++ q₁ ++ q₂ ++ q₃, by simp, hlead, fun other hother => ?_⟩
  have hfront := FunctionFront.front hother hvisibility hq₁ hq₂ hq₃
  simpa using hfront

theorem led_structFront (between : Text → Prop) : Led (StructFront between) := by
  rintro _ ⟨hlead, hvisibility⟩
  rename_i lead visibility
  exact ⟨lead, visibility, rfl, hlead, fun other hother => .front hother hvisibility⟩

theorem DocLine.ne_nil {line : Text} (h : DocLine line) : line ≠ [] := by
  cases h
  simp

theorem AttributeLine.ne_nil {line : Text} (h : AttributeLine line) : line ≠ [] := by
  cases h
  simp

/-- Documentation can stand above all lines that belong to an item. -/
theorem Leading.docLine_append {line lead : Text} (hline : DocLine line) (h : Leading lead) :
    Leading (line ++ lead) := by
  obtain ⟨hdocs, hattributes, hblanks⟩ := h
  have hlines := Leading.lines (.more hline hdocs) hattributes hblanks
  simpa using hlines

/-- An attribute can stand above the lines that belong to an item, unless these begin with
documentation. -/
theorem Leading.attributeLine_append {line lead : Text} (hline : AttributeLine line)
    (h : Leading lead) :
    Leading (line ++ lead) ∨ ∃ doc rest, lead = doc ++ rest ∧ DocLine doc := by
  obtain @⟨_, attributes, blanks, hdocs, hattributes, hblanks⟩ := h
  cases hdocs with
  | none =>
    have hlines := Leading.lines .none (.more hline hattributes) hblanks
    exact .inl (by simpa using hlines)
  | @more doc docs hdoc _ =>
    exact .inr ⟨doc, docs ++ attributes ++ blanks, by simp, hdoc⟩

/-! ## First items -/

variable {front rest : Text → Prop} {text : Text} {span : Span}

/-- Above a first item stands nothing that could be the first of its lines. -/
theorem IsFirst.not_leading_above (hfirst : IsFirst (Item front rest) text span)
    {above line lead later word after : Text}
    (htext : text = above ++ (line ++ (lead ++ later ++ word)) ++ after)
    (hstart : span.start = Text.size (above ++ line)) (hline : line ≠ [])
    (hword : AtWordStart (above ++ (line ++ (lead ++ later)))) (hrest : rest word) :
    ¬ front (line ++ lead ++ later) := by
  intro hfront
  have hitem : Item front rest above (line ++ lead ++ later ++ word) :=
    .item hfront (by simpa using hword) hrest
  have hspans : Spans (Item front rest) text
      ⟨Text.size above, Text.size (above ++ (line ++ lead ++ later ++ word))⟩ :=
    ⟨above, _, after, by simpa using htext, hitem, rfl⟩
  have hle := hfirst.2 _ hspans
  have hpos := Text.size_pos_of_ne_nil hline
  simp only [hstart, Text.size_append] at hle
  omega

/-- Directly above a first item stands no documentation, and no attribute unless the item begins
with documentation. -/
theorem IsFirst.above (hled : Led front) (hfirst : IsFirst (Item front rest) text span)
    {above line below : Text} (htext : text = above ++ line ++ below)
    (hstart : span.start = Text.size (above ++ line)) :
    ¬ DocLine line ∧ (AttributeLine line → ∃ doc later, below = doc ++ later ∧ DocLine doc) := by
  obtain ⟨before, _, after, htext', hitem, rfl⟩ := id hfirst.1
  obtain @⟨u, word, hfront, hword, hrest⟩ := hitem
  obtain ⟨lead, later, rfl, hlead, hother⟩ := hled u hfront
  have hsame : before ++ (lead ++ later ++ word ++ after) = above ++ line ++ below := by
    rw [← htext, htext']
    simp
  obtain ⟨rfl, rfl⟩ := Text.append_inj_of_size hsame hstart
  have hwhole : text = above ++ (line ++ (lead ++ later ++ word)) ++ after := by
    rw [htext']
    simp
  have hnot : line ≠ [] → ¬ front (line ++ lead ++ later) := fun hline =>
    hfirst.not_leading_above hwhole rfl hline (by simpa using hword) hrest
  constructor
  · intro hline
    exact hnot hline.ne_nil (hother _ (.docLine_append hline hlead))
  · intro hline
    rcases Leading.attributeLine_append hline hlead with hmore | ⟨doc, more, rfl, hdoc⟩
    · exact absurd (hother _ hmore) (hnot hline.ne_nil)
    · exact ⟨doc, more ++ later ++ word ++ after, by simp, hdoc⟩

end Grammar

open Grammar

/-- A definition is located where a first item with lines in front of it starts. -/
theorem exists_isFirst_of_locate {text : Text} {request : Request} {start : Nat}
    (h : locate text request = some start) :
    ∃ front rest stop, Led front ∧ IsFirst (Item front rest) text ⟨start, stop⟩ := by
  obtain ⟨kind, name⟩ := request
  cases kind with
  | function =>
    rw [locate_function_eq, (Shape.describes_function name).start_eq_some_iff] at h
    obtain ⟨stop, hfirst⟩ := h
    exact ⟨_, _, stop, led_functionFront Space, hfirst⟩
  | struct =>
    obtain ⟨span, hspan, rfl⟩ := Option.map_eq_some_iff.1 h
    obtain ⟨hit, hfind, rfl⟩ := Option.map_eq_some_iff.1 hspan
    exact ⟨_, _, hit.span.stop, led_structFront Space,
      (Shape.describes_struct name).isFirst_of_find? hfind⟩

/-- The text above a located definition does not end with a line of documentation. It ends with an
attribute only where the definition begins with documentation. -/
theorem locate_above {text : Text} {request : Request} {start : Nat}
    (h : locate text request = some start) :
    text.IsBoundary start ∧
    ∀ above line, text.takeBytes start = above ++ line →
      ¬ DocLine line ∧
      (AttributeLine line → ∃ doc below, text.dropBytes start = doc ++ below ∧ DocLine doc) := by
  obtain ⟨front, rest, stop, hled, hfirst⟩ := exists_isFirst_of_locate h
  obtain ⟨before, word, after, htext, _, hspan⟩ := id hfirst.1
  obtain rfl : start = Text.size before := congrArg Span.start hspan
  rw [List.append_assoc] at htext
  rw [htext, Text.takeBytes_size_append, Text.dropBytes_size_append]
  refine ⟨Text.isBoundary_size_append before _, ?_⟩
  rintro above line rfl
  exact hfirst.above hled htext rfl

/-- A function with an attribute above its documentation. -/
def attributeFirst : Text :=
  "#[inline]\n/// a\nfn foo() \x7b\x7d\n".toList

/-- It is located at its documentation, and the attribute stands above. -/
theorem locate_above_sample :
    locate attributeFirst ⟨.function, "foo"⟩ = some 10 ∧
    attributeFirst.takeBytes 10 = "#[inline]\n".toList ∧
    attributeFirst.IsBoundary 10 ∧
    ∀ above line, attributeFirst.takeBytes 10 = above ++ line →
      ¬ DocLine line ∧
      (AttributeLine line → ∃ doc below, attributeFirst.dropBytes 10 = doc ++ below ∧
        DocLine doc) :=
  have h : locate attributeFirst ⟨.function, "foo"⟩ = some 10 := by decide +kernel
  ⟨h, by decide +kernel, locate_above h⟩

end Carver
