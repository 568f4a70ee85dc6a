import Carver.Proofs.ImplBlocks

/-!
# Where impl blocks are located

The grammar of impl blocks, and that the located spans are exactly its blocks
(`locateImpls_exact`): each span holds a block, the spans ascend without overlapping, and every head
with a closing line somewhere behind it starts in one of them. `Marks` follows the search through
the text from left to right: a place is either passed, where no block begins, or a block is marked
and the search goes on behind its closing brace. What holds of all spans is then an induction over
the places.
-/

namespace Carver

namespace Grammar

/-- An impl block from `impl` to its opening brace. -/
inductive ImplOpening (name : String) : Text → Prop
  | opening {generics gap arguments space : Text} : Optional Generics generics → Gap gap →
      Optional Generics arguments → Space space →
      ImplOpening name ("impl".toList ++ generics ++ gap ++ name.toList ++ arguments ++ space
        ++ ['{'])

/-- Blanks, possibly a carriage return, and then a line feed or the end of the text. -/
inductive LineTail : Text → Prop
  | tail {blanks ending after : Text} : Blanks blanks → Optional (· = ['\r']) ending →
      (after = [] ∨ ∃ later, after = '\n' :: later) → LineTail (blanks ++ ending ++ after)

/-- A line feed, and behind it a line that is a lone closing brace. -/
inductive ClosingLine : Text → Prop
  | line {after : Text} : LineTail after → ClosingLine ('\n' :: '}' :: after)

/-- The span holds an impl block of this name: a head, and everything behind it up to the first line
that is a lone closing brace. -/
inductive HoldsImpl (name : String) (text : Text) (span : Span) : Prop
  | block {before front inner after : Text} :
      text = before ++ (front ++ '{' :: (inner ++ '\n' :: '}' :: after)) →
      span = ⟨Text.size before, Text.size (before ++ (front ++ '{' :: (inner ++ ['\n', '}'])))⟩ →
      Item Leading (ImplOpening name) before (front ++ ['{']) → LineTail after →
      (∀ u v, inner = u ++ v → v ≠ [] → ¬ ClosingLine (v ++ '\n' :: '}' :: after)) →
      HoldsImpl name text span

theorem lineTail_iff {text : Text} : LineTail text ↔ Text.endsLine text = true := by
  have hend : ∀ after : Text, (after = [] ∨ ∃ later, after = '\n' :: later)
      ↔ after.head?.all (· == '\n') = true := by
    intro after
    cases after <;> simp
  rw [Text.endsLine_iff]
  constructor
  · rintro ⟨hblanks, hending, hafter⟩
    exact ⟨_, _, _, rfl, hblanks, hending, (hend _).1 hafter⟩
  · rintro ⟨blanks, ending, after, rfl, hblanks, hending, hafter⟩
    exact .tail hblanks hending ((hend after).2 hafter)

theorem closingLine_iff {text : Text} : ClosingLine text ↔ Text.closesHere text = true := by
  rw [Text.closesHere_iff]
  constructor
  · rintro ⟨hafter⟩
    exact ⟨_, rfl, lineTail_iff.1 hafter⟩
  · rintro ⟨after, rfl, hafter⟩
    exact .line (lineTail_iff.2 hafter)

end Grammar

open Grammar Pattern Shape

/-! ## Heads and closing lines -/

theorem spells_implHead_iff (name : String) (word : Text) :
    (all (implHead name)).Spells word ↔ ImplOpening name word := by
  simp only [implHead, spells_all_cons, spells_all_nil, spells_literal, spells_char,
    spells_gap_iff, spells_space_iff, spells_maybe_iff spells_generics_iff]
  constructor
  · rintro ⟨_, _, rfl, rfl, generics, _, rfl, hgenerics, gap, _, rfl, hgap, _, _, rfl, rfl,
      arguments, _, rfl, harguments, space, _, rfl, hspace, _, _, rfl, rfl, rfl⟩
    have hopening : ImplOpening name _ := .opening hgenerics hgap harguments hspace
    simpa using hopening
  · rintro ⟨hgenerics, hgap, harguments, hspace⟩
    rename_i generics gap arguments space
    exact ⟨_, _, by simp, rfl, generics, _, rfl, hgenerics, gap, _, rfl, hgap, name.toList, _, rfl,
      rfl, arguments, _, rfl, harguments, space, _, rfl, hspace, ['{'], [], rfl, rfl, rfl⟩

/-- Heads of impl blocks are those of the grammar. -/
theorem implHead_eq_item (name : String) : ImplHead name = Item Leading (ImplOpening name) := by
  have hfront : (all [leading]).Spells = Leading := by
    funext word
    rw [spells_all_cons]
    simp only [spells_all_nil, spells_leading_iff]
    exact propext ⟨by rintro ⟨u, v, rfl, hu, rfl⟩; rwa [List.append_nil],
      fun hword => ⟨word, [], (List.append_nil word).symm, hword, rfl⟩⟩
  have hrest : (all (implHead name)).Spells = ImplOpening name :=
    funext fun word => propext (spells_implHead_iff name word)
  rw [ImplHead, hfront, hrest]

/-- The head of an impl block ends with a brace. -/
theorem ImplHead.exists_front {name : String} {before head : Text} (h : ImplHead name before head) :
    ∃ front, head = front ++ ['{'] := by
  rw [implHead_eq_item] at h
  obtain ⟨_, _, hopening⟩ := h
  obtain ⟨_, _, _, _⟩ := hopening
  exact ⟨_, (List.append_assoc _ _ _).symm⟩

namespace Text

/-- What comes up to the closing line ends with a line feed and a brace, and no line in front of
them is a closing line. -/
theorem exists_inner_of_splitClosing? {text block after : Text}
    (h : splitClosing? text = some (block, after)) :
    ∃ inner, block = inner ++ ['\n', '}'] ∧ endsLine after = true ∧
      ∀ u v, inner = u ++ v → v ≠ [] → ¬ closesHere (v ++ '\n' :: '}' :: after) = true := by
  induction text generalizing block with
  | nil => cases h
  | cons c rest ih =>
    have hwhole := append_of_splitClosing? h
    rw [splitClosing?] at h
    split at h
    · rename_i hcloses
      obtain ⟨later, heq, hlater⟩ := closesHere_iff.1 hcloses
      obtain ⟨rfl, rfl⟩ := List.cons.inj heq
      obtain ⟨rfl, rfl⟩ := Prod.mk.inj (Option.some.inj h)
      refine ⟨[], rfl, hlater, fun u v huv hv => ?_⟩
      exact absurd (List.append_eq_nil_iff.1 huv.symm).2 hv
    · rename_i hnot
      obtain ⟨⟨later, after'⟩, hlater, heq⟩ := Option.map_eq_some_iff.1 h
      obtain ⟨rfl, rfl⟩ := Prod.mk.inj heq
      obtain ⟨inner, rfl, hafter, hfirst⟩ := ih hlater
      refine ⟨c :: inner, rfl, hafter, fun u v huv hv => ?_⟩
      cases u with
      | nil =>
        rw [List.nil_append] at huv
        rw [hwhole] at hnot
        rw [← huv]
        simpa using hnot
      | cons d u => exact hfirst u v (List.cons.inj huv).2 hv

/-- A closing line somewhere ahead ends the block. -/
theorem splitClosing?_ne_none {v : Text} (h : closesHere v = true) (u : Text) :
    splitClosing? (u ++ v) ≠ none := by
  induction u with
  | nil =>
    cases v with
    | nil => cases h
    | cons c v =>
      rw [List.nil_append, splitClosing?, if_pos h]
      exact Option.some_ne_none _
  | cons c u ih =>
    rw [List.cons_append, splitClosing?]
    split
    · exact Option.some_ne_none _
    · rwa [Ne, Option.map_eq_none_iff]

end Text

theorem ImplBlock.holdsImpl {name : String} {before block rest : Text}
    (h : ImplBlock name before block rest) :
    HoldsImpl name (before ++ (block ++ rest))
      ⟨Text.size before, Text.size (before ++ block)⟩ := by
  obtain @⟨head, block, _, hhead, hclosing⟩ := h
  obtain ⟨front, rfl⟩ := hhead.exists_front
  obtain ⟨inner, rfl, hrest, hfirst⟩ := Text.exists_inner_of_splitClosing? hclosing
  rw [implHead_eq_item] at hhead
  have htext : before ++ (front ++ ['{'] ++ (inner ++ ['\n', '}']) ++ rest)
      = before ++ (front ++ '{' :: (inner ++ '\n' :: '}' :: rest)) := by
    simp
  refine .block htext (by simp) hhead (lineTail_iff.2 hrest) fun u v huv hv => ?_
  rw [closingLine_iff]
  exact hfirst u v huv hv

/-- Where a head starts that has a closing line behind it, a block begins. -/
theorem exists_implBlock_of_closingLine {name : String} {before head u v : Text}
    (hhead : ImplHead name before head) (hclosing : ClosingLine v) :
    ∃ block rest, head ++ (u ++ v) = block ++ rest ∧ ImplBlock name before block rest := by
  obtain ⟨⟨inner, rest⟩, hsplit⟩ := Option.ne_none_iff_exists'.1
    (Text.splitClosing?_ne_none (closingLine_iff.1 hclosing) u)
  have hwhole := Text.append_of_splitClosing? hsplit
  rw [hwhole] at hsplit ⊢
  exact ⟨head ++ inner, rest, (List.append_assoc _ _ _).symm, .block hhead hsplit⟩

/-! ## The spans of a text -/

/-- Going through a text from left to right marks the blocks of this name, each where it begins. -/
inductive Marks (name : String) : Text → Text → List Span → Prop
  | done {before : Text} : Marks name before [] []
  | pass {before : Text} {c : Char} {rest : Text} {spans : List Span} :
      (∀ block after, c :: rest = block ++ after → ¬ ImplBlock name before block after) →
      Marks name (before ++ [c]) rest spans → Marks name before (c :: rest) spans
  | mark {before block rest : Text} {spans : List Span} : ImplBlock name before block rest →
      Marks name (before ++ block) rest spans →
      Marks name before (block ++ rest)
        (⟨Text.size before, Text.size (before ++ block)⟩ :: spans)

theorem marks_hitsFrom (name : String) (before ahead : Text) :
    Marks name before ahead (((impl name).hitsFrom ⟨before.reverse, ahead⟩).map implSpan) := by
  induction hlength : ahead.length using Nat.strongRecOn generalizing before ahead with
  | ind length ih =>
    cases hfirst : (impl name).first some ⟨before.reverse, ahead⟩ with
    | some d =>
      obtain ⟨block, rest, rfl, hblock, hhits⟩ := hitsFrom_of_first hfirst
      have hshorter : rest.length < length := by
        have hpos := List.length_pos_iff.2 hblock.ne_nil
        rw [List.length_append] at hlength
        omega
      rw [hhits]
      exact .mark hblock (ih _ hshorter (before ++ block) rest rfl)
    | none =>
      have hnone : ∀ block after, ahead = block ++ after → ¬ ImplBlock name before block after := by
        rintro block after rfl hblock
        exact first_impl_ne_none hblock hfirst
      cases ahead with
      | nil =>
        rw [hitsFrom_eq, ends_impl_of_endsLine rfl]
        exact .done
      | cons c rest =>
        rw [hitsFrom_skip hnone]
        refine .pass hnone (ih _ ?_ (before ++ [c]) rest rfl)
        rw [← hlength]
        exact Nat.lt_succ_self _

theorem marks_locateImpls (text : Text) (name : String) :
    Marks name [] text (locateImpls text name) := by
  have hmarks := marks_hitsFrom name [] text
  rw [List.reverse_nil] at hmarks
  rw [locateImpls, findAll_eq_hitsFrom]
  exact hmarks

namespace Marks

variable {name : String} {before ahead : Text} {spans : List Span}

theorem holdsImpl (h : Marks name before ahead spans) :
    ∀ span ∈ spans, HoldsImpl name (before ++ ahead) span := by
  induction h with
  | done => simp
  | pass _ _ ih => simpa using ih
  | mark hblock _ ih =>
    rw [List.forall_mem_cons]
    exact ⟨hblock.holdsImpl, by simpa using ih⟩

theorem start_lt_stop (h : Marks name before ahead spans) :
    ∀ span ∈ spans, span.start < span.stop := by
  induction h with
  | done => simp
  | pass _ _ ih => exact ih
  | mark hblock _ ih =>
    have hpos := Text.size_pos_of_ne_nil hblock.ne_nil
    rw [List.forall_mem_cons, Text.size_append]
    exact ⟨Nat.lt_add_of_pos_right hpos, ih⟩

theorem le_start (h : Marks name before ahead spans) :
    ∀ span ∈ spans, Text.size before ≤ span.start := by
  induction h with
  | done => simp
  | pass _ _ ih =>
    intro span hspan
    have hle := ih span hspan
    rw [Text.size_append] at hle
    omega
  | mark _ _ ih =>
    refine List.forall_mem_cons.2 ⟨Nat.le_refl _, fun span hspan => ?_⟩
    have hle := ih span hspan
    rw [Text.size_append] at hle
    omega

/-- Each span ends before the next one starts. -/
theorem pairwise (h : Marks name before ahead spans) :
    spans.Pairwise fun span next => span.stop ≤ next.start := by
  induction h with
  | done => exact .nil
  | pass _ _ ih => exact ih
  | mark _ hrest ih => exact .cons hrest.le_start ih

/-- A block begins in one of the spans, wherever it begins. -/
theorem exists_of_implBlock (h : Marks name before ahead spans) {u block after : Text}
    (hahead : ahead = u ++ (block ++ after)) (hblock : ImplBlock name (before ++ u) block after) :
    ∃ span ∈ spans, span.start ≤ Text.size (before ++ u) ∧ Text.size (before ++ u) < span.stop := by
  induction h generalizing u with
  | done =>
    have hnil := List.append_eq_nil_iff.1 (List.append_eq_nil_iff.1 hahead.symm).2
    exact absurd hnil.1 hblock.ne_nil
  | pass hnone _ ih =>
    cases u with
    | nil =>
      rw [List.append_nil] at hblock
      exact absurd hblock (hnone block after hahead)
    | cons d u =>
      obtain ⟨rfl, hrest⟩ := List.cons.inj hahead
      have hlater := ih hrest (by simpa using hblock)
      simpa using hlater
  | @mark before first rest spans _ _ ih =>
    have hlater : ∀ later, u = first ++ later → rest = later ++ (block ++ after) →
        ∃ span ∈ ⟨Text.size before, Text.size (before ++ first)⟩ :: spans,
          span.start ≤ Text.size (before ++ u) ∧ Text.size (before ++ u) < span.stop := by
      rintro later rfl hrest
      obtain ⟨span, hspan, hplace⟩ := ih hrest (by simpa using hblock)
      exact ⟨span, List.mem_cons_of_mem _ hspan, by simpa using hplace⟩
    rcases List.append_eq_append_iff.1 hahead with ⟨later, hu, hrest⟩ | ⟨inner, hfirst, hrest⟩
    · exact hlater later hu hrest
    · -- where the marked block ends, the rest begins
      by_cases hinner : inner = []
      · subst hinner
        exact hlater [] (by simpa using hfirst.symm) hrest.symm
      · have hpos := Text.size_pos_of_ne_nil hinner
        refine ⟨_, List.mem_cons_self, ?_⟩
        simp only [hfirst, Text.size_append]
        omega

end Marks

/-- The located spans are the impl blocks of the name: they are not empty and ascend without
overlapping, each holds a block, and a head of a block with a closing line behind it starts in one
of them, wherever it starts. -/
theorem locateImpls_exact (text : Text) (name : String) :
    (locateImpls text name).Pairwise (fun span next =>
      span.start < next.start ∧ span.stop ≤ next.start) ∧
    (∀ span ∈ locateImpls text name, span.start < span.stop ∧ HoldsImpl name text span) ∧
    ∀ before head u v, text = before ++ (head ++ (u ++ v)) →
      Item Leading (ImplOpening name) before head → ClosingLine v →
      ∃ span ∈ locateImpls text name,
        span.start ≤ Text.size before ∧ Text.size before < span.stop := by
  have hmarks := marks_locateImpls text name
  refine ⟨?_, fun span hspan => ⟨hmarks.start_lt_stop span hspan, hmarks.holdsImpl span hspan⟩, ?_⟩
  · refine hmarks.pairwise.imp_of_mem fun {span _} hspan _ hle => ⟨?_, hle⟩
    exact Nat.lt_of_lt_of_le (hmarks.start_lt_stop span hspan) hle
  · intro before head u v htext hhead hclosing
    rw [← implHead_eq_item] at hhead
    obtain ⟨block, rest, hwhole, hblock⟩ := exists_implBlock_of_closingLine hhead hclosing
    rw [hwhole] at htext
    exact hmarks.exists_of_implBlock htext hblock

/-- An impl block between two others that are not blocks of its name. -/
def middleImpl : Text :=
  "impl M \x7b\n\x7d\n/// N\nimpl N \x7b\n\x7d \r\nimpl T for N \x7b\n\x7d\n".toList

/-- It is located with its documentation and up to its closing brace. -/
theorem locateImpls_exact_sample :
    locateImpls middleImpl "N" = [⟨11, 27⟩] ∧ HoldsImpl "N" middleImpl ⟨11, 27⟩ := by
  have hspans : locateImpls middleImpl "N" = [⟨11, 27⟩] := by decide +kernel
  obtain ⟨-, hholds, -⟩ := locateImpls_exact middleImpl "N"
  rw [hspans] at hholds
  exact ⟨hspans, (hholds _ List.mem_cons_self).2⟩

end Carver
