import Carver.Proofs.Blocks
import Carver.Proofs.ExactLocation

/-!
# Functions that are cut out whole

The head of a function ends with the brace that opens the body, but the end of the body is looked
for from the start of the head on. If the head has no other brace, the two agree: the head and the
block that it opens are cut out (`cut_whole_iff`). If a documentation line, an attribute or the
parameters hold an opening brace, the block that is counted begins there, and its end is never the
end of the body: it lies in front of it, or the brace of the body is counted as an inner one.
-/

namespace Carver

open Grammar

/-- The head of a function ends with a brace. -/
theorem Grammar.FunctionHead.exists_eq {between : Text → Prop} {name : String}
    {before head : Text} (h : FunctionHead between name before head) :
    ∃ front, head = front ++ ['{'] := by
  obtain ⟨_, _, hsignature⟩ := h
  obtain ⟨_, _, _, _, _, _, _, _⟩ := hsignature
  exact ⟨_, (List.append_assoc _ _ _).symm⟩

/-- Where a function is located, the text has a head of it. -/
theorem exists_of_locateFunction {text : Text} {name : String} {span : Span}
    (h : locateFunction text name = some span) :
    ∃ before front after : Text, text = before ++ (front ++ '{' :: after) ∧
      span = ⟨Text.size before, Text.size (before ++ (front ++ ['{']))⟩ := by
  obtain ⟨hit, hfind, rfl⟩ := Option.map_eq_some_iff.1 h
  obtain ⟨before, head, after, htext, hhead, hspan⟩ :=
    (Shape.describes_function name).spans_of_find? hfind
  obtain ⟨front, rfl⟩ := hhead.exists_eq
  refine ⟨before, front, after, ?_, hspan⟩
  rw [htext, List.append_assoc, List.append_assoc]
  rfl

/-- What is cut out of the text is its beginning in the first block behind the location. -/
theorem exists_of_extractFunction {text : Text} {name : String} {cut : Extraction}
    (h : extractFunction text name = .ok cut) :
    ∃ span, locateFunction text name = some span ∧ extractFrom? text span.start = some cut := by
  unfold extractFunction at h
  cases hspan : locateFunction text name with
  | none =>
    rw [hspan] at h
    cases h
  | some span =>
    simp only [hspan] at h
    cases hcut : extractFrom? text span.start with
    | none =>
      rw [hcut] at h
      cases h
    | some extraction =>
      rw [hcut, Except.ok.injEq] at h
      rw [← h]
      exact ⟨span, rfl, hcut⟩

/-- A head without an inner brace is cut out with the block that it opens. -/
theorem cut_of_notMem {before front after : Text} {cut : Extraction} (hfront : '{' ∉ front)
    (h : extractFrom? (before ++ (front ++ '{' :: after)) (Text.size before) = some cut) :
    ∃ body rest, Braces.close 1 after = some (body, rest) ∧ cut.text = front ++ '{' :: body := by
  rw [extractFrom?_append, Braces.firstBlock_append hfront, Option.map_map] at h
  obtain ⟨⟨body, rest⟩, hclose, rfl⟩ := Option.map_eq_some_iff.1 h
  exact ⟨body, rest, hclose, rfl⟩

/-- A head with an inner brace is not cut out with the block that it opens. -/
theorem cut_ne_of_mem {before front after body rest : Text} {cut : Extraction}
    (hfront : '{' ∈ front) (hbody : Braces.close 1 after = some (body, rest))
    (h : extractFrom? (before ++ (front ++ '{' :: after)) (Text.size before) = some cut) :
    cut.text ≠ front ++ '{' :: body := by
  obtain ⟨plain, inner, rfl, hplain⟩ := List.eq_append_cons_of_mem hfront
  rw [List.append_assoc] at h
  obtain ⟨block, rest', hblock, hcut⟩ := cut_of_notMem hplain h
  intro hwhole
  rw [hcut, List.append_assoc] at hwhole
  exact Braces.ne_of_close_append hbody hblock
    (List.cons.inj (List.append_cancel_left hwhole)).2

/-- The end of the block that the head opens is the end of the cut exactly if the head has no inner
brace. -/
theorem cut_eq_slice_iff {before front after : Text} {cut : Extraction}
    (h : extractFrom? (before ++ (front ++ '{' :: after)) (Text.size before) = some cut) :
    (∃ stop, Braces.balancedEnd (before ++ (front ++ '{' :: after)) (Text.size (before ++ front))
        = some stop ∧
      cut.text = Text.slice (before ++ (front ++ '{' :: after)) ⟨Text.size before, stop⟩)
      ↔ '{' ∉ front := by
  have hend : Braces.balancedEnd (before ++ (front ++ '{' :: after)) (Text.size (before ++ front))
      = (Braces.close 1 after).map fun pair =>
        Text.size (before ++ (front ++ '{' :: pair.1)) := by
    rw [← List.append_assoc, Braces.balancedEnd_opening]
    simp only [List.append_assoc]
  have hslice : ∀ body rest, Braces.close 1 after = some (body, rest) →
      Text.slice (before ++ (front ++ '{' :: after))
        ⟨Text.size before, Text.size (before ++ (front ++ '{' :: body))⟩
        = front ++ '{' :: body := by
    intro body rest hclose
    have htext : before ++ (front ++ '{' :: (body ++ rest))
        = before ++ (front ++ '{' :: body) ++ rest := by
      simp
    rw [Braces.append_of_close hclose, htext, Text.slice_append]
  rw [hend]
  constructor
  · rintro ⟨stop, hstop, hcut⟩ hfront
    obtain ⟨⟨body, rest⟩, hclose, rfl⟩ := Option.map_eq_some_iff.1 hstop
    rw [hslice body rest hclose] at hcut
    exact cut_ne_of_mem hfront hclose h hcut
  · intro hfront
    obtain ⟨body, rest, hclose, hcut⟩ := cut_of_notMem hfront h
    refine ⟨_, by rw [hclose]; rfl, ?_⟩
    rw [hcut, hslice body rest hclose]

/-- A function is cut out as its head and the block that the head opens if and only if the head has
no brace but its last character; what is cut out then is the head and a balanced block. -/
theorem cut_whole_iff {text : Text} {name : String} {cut : Extraction}
    (h : extractFunction text name = .ok cut) :
    ∃ head front, locateFunction text name = some head ∧
      text.slice head = front ++ ['{'] ∧ text.slice ⟨head.stop - 1, head.stop⟩ = ['{'] ∧
      ((∃ stop, Braces.balancedEnd text (head.stop - 1) = some stop ∧
        cut.text = text.slice ⟨head.start, stop⟩) ↔ '{' ∉ front) ∧
      ('{' ∉ front → ∃ body, cut.text = front ++ '{' :: body ∧ Braces.Block ('{' :: body)) := by
  obtain ⟨head, hhead, hcut⟩ := exists_of_extractFunction h
  obtain ⟨before, front, after, rfl, rfl⟩ := exists_of_locateFunction hhead
  have htext : before ++ (front ++ '{' :: after) = before ++ (front ++ ['{']) ++ after := by
    simp
  have hbrace : before ++ (front ++ '{' :: after) = before ++ front ++ ['{'] ++ after := by
    simp
  have hstop : Text.size (before ++ (front ++ ['{'])) = Text.size (before ++ front ++ ['{']) := by
    rw [List.append_assoc]
  have hstart : Text.size (before ++ (front ++ ['{'])) - 1 = Text.size (before ++ front) := by
    rw [hstop, Text.size_append _ ['{']]
    exact Nat.add_sub_cancel _ 1
  refine ⟨_, front, hhead, ?_, ?_, ?_, fun hfront => ?_⟩
  · rw [htext, Text.slice_append]
  · simp only [hstart]
    rw [hbrace, hstop, Text.slice_append]
  · simp only [hstart]
    exact cut_eq_slice_iff hcut
  · obtain ⟨body, rest, hclose, htext⟩ := cut_of_notMem hfront hcut
    exact ⟨body, htext, Braces.block_of_close hclose⟩

/-- A function with a line of documentation. -/
def documented : Text :=
  "/// a\nfn foo() { 1 }".toList

theorem cut_whole_iff_sample :
    ∃ head front, locateFunction documented "foo" = some head ∧
      documented.slice head = front ++ ['{'] ∧
      documented.slice ⟨head.stop - 1, head.stop⟩ = ['{'] ∧
      ((∃ stop, Braces.balancedEnd documented (head.stop - 1) = some stop ∧
        documented = documented.slice ⟨head.start, stop⟩) ↔ '{' ∉ front) ∧
      ('{' ∉ front → ∃ body, documented = front ++ '{' :: body ∧ Braces.Block ('{' :: body)) :=
  @cut_whole_iff documented "foo" ⟨documented, []⟩ (by decide +kernel)

/-- A brace in the documentation is counted: the text that is cut out ends there, and not with the
body of the function. -/
theorem not_forall_whole :
    ¬ ∀ (text : Text) (name : String) (cut : Extraction), Identifier.isUsable name = true →
      extractFunction text name = .ok cut →
      ∃ head stop, locateFunction text name = some head ∧
        Braces.balancedEnd text (head.stop - 1) = some stop ∧
        cut.text = text.slice ⟨head.start, stop⟩ := by
  intro hall
  have hcut : extractFunction "/// {}\nfn foo() { 1 }".toList "foo"
      = .ok ⟨"/// {}".toList, "\nfn foo() { 1 }".toList⟩ := by
    decide +kernel
  have hhead : locateFunction "/// {}\nfn foo() { 1 }".toList "foo" = some ⟨0, 17⟩ := by
    decide +kernel
  have hend : Braces.balancedEnd "/// {}\nfn foo() { 1 }".toList 16 = some 21 := by
    decide +kernel
  obtain ⟨head, stop, hhead', hstop, htext⟩ := hall _ "foo" _ (by decide +kernel) hcut
  obtain rfl := Option.some.inj (hhead.symm.trans hhead')
  obtain rfl := Option.some.inj (hend.symm.trans hstop)
  exact absurd htext (by decide +kernel)

end Carver
