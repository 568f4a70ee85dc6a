import Carver.Definition.Extract
import Carver.Proofs.Bytes

/-!
# Blocks that end

The scan for the end of a block counts open braces. What it passes from a brace on is a block of
the grammar (`block_of_close`). With more blocks open it stops further right
(`length_lt_of_close`), so the same end is not found twice with different counts: a scan that began
further left, with one block open already, does not end where one does that begins here
(`ne_of_close_append`).
-/

namespace Carver

namespace Braces

/-! ## One character -/

/-- How many blocks are open behind a character. -/
def depthAfter (depth : Nat) (c : Char) : Nat :=
  if c = '{' then depth + 1 else if c = '}' then depth - 1 else depth

/-- The scan stops at the brace that closes the last block and goes on behind any other
character. -/
theorem close_cons_eq_some {depth : Nat} {c : Char} {rest block after : Text}
    (h : close depth (c :: rest) = some (block, after)) :
    (c = '}' ∧ depth ≤ 1 ∧ block = ['}'] ∧ after = rest) ∨
    ((c = '}' → 1 < depth) ∧
      ∃ inner, block = c :: inner ∧ close (depthAfter depth c) rest = some (inner, after)) := by
  have hcons : ∀ next, (close next rest).map (fun pair => (c :: pair.1, pair.2))
        = some (block, after) →
      ∃ inner, block = c :: inner ∧ close next rest = some (inner, after) := by
    intro next hnext
    obtain ⟨⟨inner, outer⟩, hinner, heq⟩ := Option.map_eq_some_iff.1 hnext
    simp only [Prod.mk.injEq] at heq
    obtain ⟨rfl, rfl⟩ := heq
    exact ⟨inner, rfl, hinner⟩
  rw [close] at h
  unfold depthAfter
  by_cases hopening : c = '{'
  · rw [if_pos hopening] at h ⊢
    exact .inr ⟨fun hclosing => absurd (hopening.symm.trans hclosing) (by decide), hcons _ h⟩
  · rw [if_neg hopening] at h ⊢
    by_cases hclosing : c = '}'
    · rw [if_pos hclosing] at h ⊢
      by_cases hlast : depth ≤ 1
      · rw [if_pos hlast, Option.some.injEq, Prod.mk.injEq] at h
        exact .inl ⟨hclosing, hlast, hclosing ▸ h.1.symm, h.2.symm⟩
      · rw [if_neg hlast] at h
        exact .inr ⟨fun _ => by omega, hcons _ h⟩
    · rw [if_neg hclosing] at h ⊢
      exact .inr ⟨fun hc => absurd hc hclosing, hcons _ h⟩

theorem depthAfter_lt {depth depth' : Nat} {c : Char} (hlt : depth < depth')
    (hopen : c = '}' → 1 < depth) : depthAfter depth c < depthAfter depth' c := by
  unfold depthAfter
  by_cases hopening : c = '{'
  · rw [if_pos hopening, if_pos hopening]
    omega
  · rw [if_neg hopening, if_neg hopening]
    by_cases hclosing : c = '}'
    · have hdepth := hopen hclosing
      rw [if_pos hclosing, if_pos hclosing]
      omega
    · rwa [if_neg hclosing, if_neg hclosing]

theorem depthAfter_pos {depth : Nat} {c : Char} (hdepth : 1 ≤ depth)
    (hopen : c = '}' → 1 < depth) : 1 ≤ depthAfter depth c := by
  unfold depthAfter
  by_cases hopening : c = '{'
  · rw [if_pos hopening]
    omega
  · rw [if_neg hopening]
    by_cases hclosing : c = '}'
    · have hmore := hopen hclosing
      rw [if_pos hclosing]
      omega
    · rwa [if_neg hclosing]

/-! ## Where blocks end -/

theorem append_of_close {depth : Nat} {text block after : Text}
    (h : close depth text = some (block, after)) : text = block ++ after := by
  induction text generalizing depth block with
  | nil => cases h
  | cons c rest ih =>
    rcases close_cons_eq_some h with ⟨rfl, _, rfl, rfl⟩ | ⟨_, inner, rfl, hinner⟩
    · rfl
    · rw [ih hinner, List.cons_append]

theorem ne_nil_of_close {depth : Nat} {text block after : Text}
    (h : close depth text = some (block, after)) : block ≠ [] := by
  cases text with
  | nil => cases h
  | cons c rest =>
    rcases close_cons_eq_some h with ⟨_, _, rfl, _⟩ | ⟨_, inner, rfl, _⟩
    · exact List.cons_ne_nil _ _
    · exact List.cons_ne_nil _ _

/-- With more blocks open, the last of them ends further right. -/
theorem length_lt_of_close {depth depth' : Nat} {text block block' after after' : Text}
    (hdepth : 1 ≤ depth) (hlt : depth < depth') (h : close depth text = some (block, after))
    (h' : close depth' text = some (block', after')) : block.length < block'.length := by
  induction text generalizing depth depth' block block' with
  | nil => cases h
  | cons c rest ih =>
    rcases close_cons_eq_some h' with ⟨_, hlast, _, _⟩ | ⟨_, inner', rfl, hinner'⟩
    · omega
    · rcases close_cons_eq_some h with ⟨_, _, rfl, _⟩ | ⟨hopen, inner, rfl, hinner⟩
      · have hpos : 0 < inner'.length := List.length_pos_iff.2 (ne_nil_of_close hinner')
        exact Nat.succ_lt_succ hpos
      · exact Nat.succ_lt_succ
          (ih (depthAfter_pos hdepth hopen) (depthAfter_lt hlt hopen) hinner hinner')

/-- Behind a part of what it passes, the scan goes on with the blocks that are open there. -/
theorem exists_close_of_append {depth : Nat} {front text block after : Text} (hdepth : 1 ≤ depth)
    (hblock : block ≠ []) (h : close depth (front ++ text) = some (front ++ block, after)) :
    ∃ next, 1 ≤ next ∧ close next text = some (block, after) := by
  induction front generalizing depth with
  | nil => exact ⟨depth, hdepth, h⟩
  | cons c front ih =>
    rcases close_cons_eq_some h with ⟨_, _, heq, _⟩ | ⟨hopen, inner, heq, hinner⟩
    · exact absurd (List.append_eq_nil_iff.1 (List.cons.inj heq).2).2 hblock
    · rw [← (List.cons.inj heq).2] at hinner
      exact ih (depthAfter_pos hdepth hopen) hinner

/-- A block that began further left does not end where a block ends that begins here. -/
theorem ne_of_close_append {front text block block' after after' : Text}
    (h : close 1 text = some (block, after))
    (h' : close 1 (front ++ '{' :: text) = some (block', after')) :
    block' ≠ front ++ '{' :: block := by
  rintro rfl
  obtain ⟨next, hnext, hopening⟩ :=
    exists_close_of_append (Nat.le_refl 1) (List.cons_ne_nil _ _) h'
  rcases close_cons_eq_some hopening with ⟨hbrace, _⟩ | ⟨_, inner, heq, hinner⟩
  · cases hbrace
  · -- the brace here is the second one that is open, so the outer block goes on behind this one
    rw [← (List.cons.inj heq).2] at hinner
    have hlonger := length_lt_of_close (Nat.le_refl 1) (Nat.lt_succ_of_le hnext) h hinner
    exact Nat.lt_irrefl _ hlonger

/-- Braces that never close more blocks than are open leave the count of open blocks to the rest of
the text. -/
theorem close_append {depth left : Nat} {body rest : Text}
    (hopen : ∀ front, front <+: body → front.count '}' < front.count '{' + depth)
    (hleft : body.count '}' + left = body.count '{' + depth) :
    close depth (body ++ rest)
      = (close left rest).map fun (block, after) => (body ++ block, after) := by
  induction body generalizing depth with
  | nil =>
    have hdepth : left = depth := by simpa using hleft
    rw [hdepth]
    simp
  | cons c body ih =>
    have hopen' : ∀ front, front <+: body →
        (c :: front).count '}' < (c :: front).count '{' + depth := fun front hfront =>
      hopen _ ((List.prefix_cons_inj c).2 hfront)
    -- with the new count of open blocks the rest of the body goes on
    have hstep : ∀ next, (∀ front, front <+: body → front.count '}' < front.count '{' + next) →
        body.count '}' + left = body.count '{' + next →
        (close next (body ++ rest)).map (fun (block, after) => (c :: block, after))
          = (close left rest).map fun (block, after) => (c :: body ++ block, after) := by
      intro next hnext hleft'
      rw [ih hnext hleft', Option.map_map]
      rfl
    rw [List.cons_append, close]
    by_cases hopening : c = '{'
    · subst hopening
      rw [if_pos rfl]
      refine hstep (depth + 1) (fun front hfront => ?_) ?_
      · have hfront' := hopen' front hfront
        simp only [List.count_cons_self, List.count_cons_of_ne (by decide : '{' ≠ '}')] at hfront'
        omega
      · simp only [List.count_cons_self, List.count_cons_of_ne (by decide : '{' ≠ '}')] at hleft
        omega
    · rw [if_neg hopening]
      by_cases hclosing : c = '}'
      · subst hclosing
        have hdepth : ¬ depth ≤ 1 := by
          have hfront := hopen' [] List.nil_prefix
          simp at hfront
          omega
        rw [if_pos rfl, if_neg hdepth]
        refine hstep (depth - 1) (fun front hfront => ?_) ?_
        · have hfront' := hopen' front hfront
          simp only [List.count_cons_self, List.count_cons_of_ne (by decide : '}' ≠ '{')] at hfront'
          omega
        · simp only [List.count_cons_self, List.count_cons_of_ne (by decide : '}' ≠ '{')] at hleft
          omega
      · rw [if_neg hclosing]
        refine hstep depth (fun front hfront => ?_) ?_
        · have hfront' := hopen' front hfront
          rwa [List.count_cons_of_ne hclosing, List.count_cons_of_ne hopening] at hfront'
        · rwa [List.count_cons_of_ne hclosing, List.count_cons_of_ne hopening] at hleft

/-! ## What blocks hold -/

/-- What is passed is as many insides as there were open blocks, each with its closing brace. -/
theorem exists_insides_of_close {depth : Nat} {text block after : Text} (hdepth : 1 ≤ depth)
    (h : close depth text = some (block, after)) :
    ∃ insides : List Text, insides.length = depth ∧ (∀ inner ∈ insides, Inside inner) ∧
      block = insides.flatMap (· ++ ['}']) := by
  induction text generalizing depth block with
  | nil => cases h
  | cons c rest ih =>
    rcases close_cons_eq_some h with ⟨_, hlast, rfl, _⟩ | ⟨hopen, later, rfl, hlater⟩
    · refine ⟨[[]], by rw [List.length_singleton]; omega, ?_, rfl⟩
      rw [List.forall_mem_singleton]
      exact .done
    · obtain ⟨insides, hlength, hinsides, rfl⟩ := ih (depthAfter_pos hdepth hopen) hlater
      unfold depthAfter at hlength
      by_cases hopening : c = '{'
      · rw [if_pos hopening] at hlength
        -- the block that opens here and what follows it are the inside of the block around it
        obtain ⟨inner, outer, more, rfl⟩ :
            ∃ inner outer more, insides = inner :: outer :: more := by
          match insides, hlength with
          | inner :: outer :: more, _ => exact ⟨inner, outer, more, rfl⟩
          | [_], hlength => simp at hlength; omega
        simp only [List.forall_mem_cons] at hinsides
        refine ⟨('{' :: inner ++ '}' :: outer) :: more, by simpa using hlength, ?_, ?_⟩
        · exact List.forall_mem_cons.2 ⟨.nested hinsides.1 hinsides.2.1, hinsides.2.2⟩
        · rw [hopening]
          simp
      · rw [if_neg hopening] at hlength
        by_cases hclosing : c = '}'
        · rw [if_pos hclosing] at hlength
          have hmore := hopen hclosing
          refine ⟨[] :: insides, by rw [List.length_cons]; omega, ?_, ?_⟩
          · exact List.forall_mem_cons.2 ⟨.done, hinsides⟩
          · rw [hclosing]
            rfl
        · rw [if_neg hclosing] at hlength
          obtain ⟨inner, more, rfl⟩ : ∃ inner more, insides = inner :: more :=
            List.exists_cons_of_length_pos (by omega)
          rw [List.forall_mem_cons] at hinsides
          exact ⟨(c :: inner) :: more, hlength,
            List.forall_mem_cons.2 ⟨.plain hopening hclosing hinsides.1, hinsides.2⟩, rfl⟩

/-- From an opening brace on, a block is passed. -/
theorem block_of_close {text block after : Text} (h : close 1 text = some (block, after)) :
    Block ('{' :: block) := by
  obtain ⟨insides, hlength, hinsides, rfl⟩ := exists_insides_of_close (Nat.le_refl 1) h
  obtain ⟨inner, rfl⟩ := List.length_eq_one_iff.1 hlength
  rw [List.forall_mem_singleton] at hinsides
  rw [List.flatMap_singleton]
  exact .wrap hinsides

/-! ## The first block of a text -/

/-- The first block of a text begins with its first opening brace. -/
theorem firstBlock_append {front : Text} (hfront : '{' ∉ front) (rest : Text) :
    firstBlock (front ++ '{' :: rest)
      = (close 1 rest).map fun (block, after) => (front, '{' :: block, after) := by
  have hstop : ∀ c ∈ front, (c != '{') = true := by
    intro c hc
    rw [bne_iff_ne]
    rintro rfl
    exact hfront hc
  rw [firstBlock, List.dropWhile_append_of_pos hstop, List.takeWhile_append_of_pos hstop,
    List.dropWhile_cons_of_neg (by simp), List.takeWhile_cons_of_neg (by simp), List.append_nil]

/-- The three parts make up the text. -/
theorem append_of_firstBlock {text front block after : Text}
    (h : firstBlock text = some (front, block, after)) : text = front ++ block ++ after := by
  rw [firstBlock] at h
  split at h
  · cases h
  · rename_i opening rest hrest
    obtain ⟨⟨inner, outer⟩, hinner, heq⟩ := Option.map_eq_some_iff.1 h
    simp only [Prod.mk.injEq] at heq
    obtain ⟨rfl, rfl, rfl⟩ := heq
    have hwhole := List.takeWhile_append_dropWhile (p := (· != '{')) (l := text)
    rw [hrest, append_of_close hinner] at hwhole
    rw [List.append_assoc]
    exact hwhole.symm

/-- The end of the first block from a place on. -/
theorem balancedEnd_append (before rest : Text) :
    balancedEnd (before ++ rest) (Text.size before)
      = (firstBlock rest).map fun (front, block, _) => Text.size (before ++ (front ++ block)) := by
  have hpure : ∀ n : Nat, (pure n : Option Nat) = some n := fun _ => rfl
  simp only [balancedEnd, Text.dropBytes?_size_append, Option.bind_eq_bind, Option.bind_some, hpure]
  cases firstBlock rest with
  | none => rfl
  | some parts =>
    rw [Option.bind_some, Option.map_some, Text.size_append, Text.size_append, Nat.add_assoc]

/-- From an opening brace on, the end is looked for behind it, with one block open. -/
theorem balancedEnd_opening (before after : Text) :
    balancedEnd (before ++ '{' :: after) (Text.size before)
      = (close 1 after).map fun (body, _) => Text.size (before ++ '{' :: body) := by
  have hblock := firstBlock_append (List.not_mem_nil (a := '{')) after
  rw [List.nil_append] at hblock
  rw [balancedEnd_append, hblock, Option.map_map]
  rfl

end Braces

/-- From a place on, the text up to the end of the first block is cut out. -/
theorem extractFrom?_append (before rest : Text) :
    extractFrom? (before ++ rest) (Text.size before)
      = (Braces.firstBlock rest).map fun (front, block, after) =>
        ⟨front ++ block, before ++ after⟩ := by
  rw [extractFrom?, blockSpan?, Braces.balancedEnd_append]
  cases hblock : Braces.firstBlock rest with
  | none => rfl
  | some parts =>
    obtain ⟨front, block, after⟩ := parts
    have hrest := Braces.append_of_firstBlock hblock
    simp only [Option.map_some]
    rw [hrest, ← List.append_assoc before (front ++ block), Text.slice_append, Text.erase_append]

end Carver
