import Carver.Proofs.Blocks
import Mathlib.Data.List.TakeWhile

/-!
# Where balanced blocks end

The end of a block is found exactly where the grammar has one (`balancedEnd_exact`): from the first
opening brace at or after the start on, the text up to the end is a block, and there is no end if
and only if each beginning from that brace on has more opening than closing braces.

A loop over the UTF-8 bytes that counts the open blocks comes to the same end, and never closes one
while none is open (`countFrom_bytes`). The bytes of a brace stand for nothing but that brace, so
the loop passes every other character in one go.
-/

namespace Carver

namespace Text

/-! ## Bytes of a text -/

/-- The UTF-8 form, byte by byte. -/
def bytes (text : Text) : List UInt8 :=
  text.flatMap String.utf8EncodeChar

theorem bytes_cons (c : Char) (rest : Text) :
    bytes (c :: rest) = String.utf8EncodeChar c ++ bytes rest :=
  List.flatMap_cons

theorem bytes_append (a b : Text) : bytes (a ++ b) = bytes a ++ bytes b :=
  List.flatMap_append

theorem length_bytes (text : Text) : (bytes text).length = size text := by
  induction text with
  | nil => rfl
  | cons c rest ih => rw [bytes_cons, List.length_append, String.length_utf8EncodeChar, ih, size]

theorem drop_bytes_append (before after : Text) :
    (bytes (before ++ after)).drop (size before) = bytes after := by
  rw [bytes_append, ← length_bytes, List.drop_left]

/-- The byte of an ASCII character is part of no other character. -/
theorem eq_of_mem_utf8EncodeChar {c mark : Char} (hmark : mark.toNat < 128)
    (h : mark.toUInt8 ∈ String.utf8EncodeChar c) : c = mark := by
  have hbyte : mark.toUInt8.toNat = mark.toNat := by
    show mark.toNat % 256 = mark.toNat
    omega
  have hhigh : ∀ n, 128 ≤ n → n < 256 → mark.toUInt8 ≠ UInt8.ofNat n := by
    intro n hn hlt heq
    have hnat : mark.toNat = n % 256 := by rw [← hbyte, heq, UInt8.toNat_ofNat']
    omega
  simp only [String.utf8EncodeChar] at h
  split at h
  · rename_i hascii
    have hnat : mark.toNat = c.val.toNat % 256 := by
      rw [← hbyte, List.mem_singleton.1 h, UInt8.toNat_ofNat']
    refine Char.ext (UInt32.toNat_inj.1 ?_)
    show c.val.toNat = mark.toNat
    omega
  -- every byte of a longer form has its first bit set
  · split at h
    · simp only [List.mem_cons, List.not_mem_nil, or_false] at h
      rcases h with h | h <;> exact absurd h (hhigh _ (by omega) (by omega))
    · split at h
      · simp only [List.mem_cons, List.not_mem_nil, or_false] at h
        rcases h with h | h | h <;> exact absurd h (hhigh _ (by omega) (by omega))
      · simp only [List.mem_cons, List.not_mem_nil, or_false] at h
        rcases h with h | h | h | h <;> exact absurd h (hhigh _ (by omega) (by omega))

end Text

namespace Braces

/-! ## Counting bytes -/

/-- Counts the open blocks from byte to byte; the first byte has the offset `offset`. The inner
answer is the offset just past the byte that closes the last open block, if there is one. There is
no answer at all if a block would be closed while none is open. -/
def countFrom (offset depth : Nat) : List UInt8 → Option (Option Nat)
  | [] => some none
  | byte :: rest =>
    if byte = '{'.toUInt8 then countFrom (offset + 1) (depth + 1) rest
    else if byte = '}'.toUInt8 then
      match depth with
      | 0 => none
      | 1 => some (some (offset + 1))
      | depth + 2 => countFrom (offset + 1) (depth + 1) rest
    else countFrom (offset + 1) depth rest

theorem countFrom_append {passed : List UInt8}
    (hpassed : ∀ byte ∈ passed, byte ≠ '{'.toUInt8 ∧ byte ≠ '}'.toUInt8) (offset depth : Nat)
    (rest : List UInt8) :
    countFrom offset depth (passed ++ rest) = countFrom (offset + passed.length) depth rest := by
  induction passed generalizing offset with
  | nil => rfl
  | cons byte passed ih =>
    rw [List.forall_mem_cons] at hpassed
    simp only [List.cons_append, countFrom, if_neg hpassed.1.1, if_neg hpassed.1.2, ih hpassed.2]
    rw [List.length_cons, Nat.add_assoc, Nat.add_comm 1]

/-- A character that is no brace is passed in one go. -/
theorem countFrom_encode {c : Char} (hopening : c ≠ '{') (hclosing : c ≠ '}')
    (offset depth : Nat) (rest : List UInt8) :
    countFrom offset depth (String.utf8EncodeChar c ++ rest)
      = countFrom (offset + c.utf8Size) depth rest := by
  rw [← String.length_utf8EncodeChar]
  refine countFrom_append (fun byte hbyte => ⟨?_, ?_⟩) offset depth rest
  · rintro rfl
    exact hopening (Text.eq_of_mem_utf8EncodeChar (by decide) hbyte)
  · rintro rfl
    exact hclosing (Text.eq_of_mem_utf8EncodeChar (by decide) hbyte)

/-- A character more makes the block longer by its bytes. -/
theorem map_size_cons (c : Char) (offset : Nat) (ends : Option (Text × Text)) :
    (ends.map fun (block, after) => (c :: block, after)).map
        (fun parts => offset + Text.size parts.1)
      = ends.map fun parts => offset + c.utf8Size + Text.size parts.1 := by
  rw [Option.map_map]
  congr 1
  funext parts
  exact (Nat.add_assoc _ _ _).symm

/-- With a block open, the loop over the bytes has an answer: where the scan over the characters
ends. -/
theorem countFrom_bytes {depth : Nat} (hdepth : 1 ≤ depth) (offset : Nat) (text : Text) :
    countFrom offset depth text.bytes
      = some ((close depth text).map fun parts => offset + Text.size parts.1) := by
  induction text generalizing depth offset with
  | nil => rfl
  | cons c rest ih =>
    rw [Text.bytes_cons, close]
    by_cases hopening : c = '{'
    · rw [if_pos hopening, map_size_cons]
      subst hopening
      exact ih (Nat.le_succ_of_le hdepth) (offset + 1)
    · by_cases hclosing : c = '}'
      · rw [if_neg hopening, if_pos hclosing]
        subst hclosing
        cases depth with
        | zero => cases hdepth
        | succ depth =>
          cases depth with
          | zero => rfl
          | succ depth =>
            rw [if_neg (by omega), map_size_cons]
            exact ih (Nat.succ_pos depth) (offset + 1)
      · rw [if_neg hopening, if_neg hclosing, map_size_cons, countFrom_encode hopening hclosing]
        exact ih hdepth (offset + c.utf8Size)

/-! ## Blocks are found -/

/-- The scan passes the inside of a block and leaves the open blocks open. -/
theorem close_inside {inner : Text} (h : Inside inner) {depth : Nat} (hdepth : 1 ≤ depth)
    (rest : Text) :
    close depth (inner ++ rest)
      = (close depth rest).map fun (block, after) => (inner ++ block, after) := by
  induction h generalizing depth rest with
  | done => simp
  | @plain c inner hopening hclosing _ ih =>
    rw [List.cons_append, close, if_neg hopening, if_neg hclosing, ih hdepth, Option.map_map]
    rfl
  | @nested inner outer _ _ ihInner ihOuter =>
    have hsplit : '{' :: inner ++ '}' :: outer ++ rest
        = '{' :: (inner ++ '}' :: (outer ++ rest)) := by
      simp
    rw [hsplit, close, if_pos rfl, ihInner (Nat.le_succ_of_le hdepth), close, if_neg (by decide),
      if_pos rfl, if_neg (by omega), Nat.add_one_sub_one, ihOuter hdepth]
    simp only [Option.map_map]
    congr 1
    funext parts
    simp

theorem close_eq_some_iff {text block after : Text} :
    close 1 text = some (block, after) ↔ text = block ++ after ∧ Block ('{' :: block) := by
  constructor
  · intro h
    exact ⟨append_of_close h, block_of_close h⟩
  · rintro ⟨rfl, hblock⟩
    obtain ⟨inner, hinner, rfl⟩ : ∃ inner, Inside inner ∧ block = inner ++ ['}'] := by
      generalize hword : '{' :: block = word at hblock
      obtain @⟨inner, hinner⟩ := hblock
      exact ⟨inner, hinner, (List.cons.inj hword).2⟩
    rw [List.append_assoc, close_inside hinner (Nat.le_refl 1)]
    rfl

/-- If a beginning closes as many blocks as were opened, the scan ends. -/
theorem isSome_close_of_count {depth : Nat} {front : Text} (hdepth : 1 ≤ depth)
    (hcount : front.count '{' + depth ≤ front.count '}') (rest : Text) :
    (close depth (front ++ rest)).isSome = true := by
  induction front generalizing depth with
  | nil =>
    simp only [List.count_nil] at hcount
    omega
  | cons c front ih =>
    rw [List.cons_append, close]
    by_cases hopening : c = '{'
    · subst hopening
      simp only [List.count_cons_self, List.count_cons_of_ne (by decide : '{' ≠ '}')] at hcount
      rw [if_pos rfl, Option.isSome_map]
      exact ih (Nat.le_succ_of_le hdepth) (by omega)
    · rw [if_neg hopening]
      rw [List.count_cons_of_ne hopening] at hcount
      by_cases hclosing : c = '}'
      · subst hclosing
        rw [List.count_cons_self] at hcount
        rw [if_pos rfl]
        split
        · rfl
        · rw [Option.isSome_map]
          exact ih (by omega) (by omega)
      · rw [List.count_cons_of_ne hclosing] at hcount
        rw [if_neg hclosing, Option.isSome_map]
        exact ih hdepth hcount

/-- The last open block does not end if and only if every beginning leaves one open. -/
theorem close_eq_none_iff {text : Text} :
    close 1 text = none ↔ ∀ front, front <+: text → front.count '}' < front.count '{' + 1 := by
  constructor
  · rintro hnone _ ⟨rest, rfl⟩
    refine Nat.lt_of_not_le fun hclosed => ?_
    have hsome := isSome_close_of_count (Nat.le_refl 1) hclosed rest
    rw [hnone] at hsome
    cases hsome
  · intro hopen
    have hwhole := hopen text (List.prefix_refl text)
    have hleft : text.count '}' + (text.count '{' + 1 - text.count '}') = text.count '{' + 1 := by
      omega
    rw [← List.append_nil text, close_append hopen hleft]
    rfl

/-! ## The first block behind a place -/

/-- The first opening brace at or after `start`, which is a boundary, has the offset `opening`. -/
structure FirstOpening (text : Text) (start opening : Nat) : Prop where
  start_le : start ≤ opening
  admits : text.Admits ⟨start, opening⟩
  not_mem : '{' ∉ text.slice ⟨start, opening⟩
  head_eq : (text.dropBytes opening).head? = some '{'

/-- The block that the first opening brace at or after `start` opens ends at `stop`. -/
def EndsAt (text : Text) (start stop : Nat) : Prop :=
  ∃ opening, FirstOpening text start opening ∧ opening ≤ stop ∧ text.Admits ⟨opening, stop⟩ ∧
    Block (text.slice ⟨opening, stop⟩)

theorem firstOpening_append (before : Text) {front : Text} (hfront : '{' ∉ front) (rest : Text) :
    FirstOpening (before ++ (front ++ '{' :: rest)) (Text.size before)
      (Text.size (before ++ front)) := by
  rw [← List.append_assoc]
  refine ⟨?_, Text.admits_append before front _, ?_, ?_⟩
  · rw [Text.size_append]
    exact Nat.le_add_right _ _
  · rwa [Text.slice_append]
  · rw [Text.dropBytes_size_append]
    rfl

theorem FirstOpening.exists_append {text : Text} {start opening : Nat}
    (h : FirstOpening text start opening) :
    ∃ before front rest, text = before ++ (front ++ '{' :: rest) ∧ start = Text.size before ∧
      opening = Text.size (before ++ front) ∧ '{' ∉ front := by
  obtain ⟨before, front, ahead, rfl, hspan⟩ := Text.exists_append_of_admits h.admits h.start_le
  obtain ⟨rfl, rfl⟩ := Span.mk.inj hspan
  have hhead := h.head_eq
  have hfront := h.not_mem
  rw [Text.dropBytes_size_append] at hhead
  rw [Text.slice_append] at hfront
  obtain ⟨rest, rfl⟩ := List.head?_eq_some_iff.1 hhead
  exact ⟨before, front, rest, List.append_assoc _ _ _, rfl, rfl, hfront⟩

/-- There is a first opening brace behind every boundary with an opening brace behind it. -/
theorem exists_firstOpening_iff {text : Text} {start : Nat} :
    (∃ opening, FirstOpening text start opening) ↔
      text.IsBoundary start ∧ '{' ∈ text.dropBytes start := by
  constructor
  · rintro ⟨opening, h⟩
    obtain ⟨before, front, rest, rfl, rfl, -, -⟩ := h.exists_append
    rw [Text.dropBytes_size_append]
    exact ⟨Text.isBoundary_size_append _ _, by simp⟩
  · rintro ⟨hstart, hbrace⟩
    obtain ⟨before, ahead, rfl, rfl⟩ := Text.exists_append_of_isBoundary hstart
    rw [Text.dropBytes_size_append] at hbrace
    obtain ⟨front, rest, rfl, hfront⟩ := List.eq_append_cons_of_mem hbrace
    exact ⟨_, firstOpening_append before hfront rest⟩

/-- The block that is looked for begins with the first opening brace. -/
theorem balancedEnd_append_opening (before : Text) {front : Text} (hfront : '{' ∉ front)
    (rest : Text) :
    balancedEnd (before ++ (front ++ '{' :: rest)) (Text.size before)
      = (close 1 rest).map fun (body, _) => Text.size (before ++ (front ++ '{' :: body)) := by
  rw [balancedEnd_append, firstBlock_append hfront, Option.map_map]
  rfl

theorem balancedEnd_eq_none_of_not {text : Text} {start : Nat}
    (h : ¬ ∃ opening, FirstOpening text start opening) : balancedEnd text start = none := by
  rw [exists_firstOpening_iff, not_and] at h
  by_cases hstart : text.IsBoundary start
  · have hbrace := h hstart
    obtain ⟨before, ahead, rfl, rfl⟩ := Text.exists_append_of_isBoundary hstart
    rw [Text.dropBytes_size_append] at hbrace
    have hnone : ahead.dropWhile (· != '{') = [] := by
      rw [List.dropWhile_eq_nil_iff]
      intro c hc
      rw [bne_iff_ne]
      rintro rfl
      exact hbrace hc
    rw [balancedEnd_append, firstBlock, hnone]
    rfl
  · have hdrop : text.dropBytes? start = none := if_neg hstart
    rw [balancedEnd, hdrop]
    rfl

theorem balancedEnd_eq_some_iff {text : Text} {start stop : Nat} :
    balancedEnd text start = some stop ↔ EndsAt text start stop := by
  constructor
  · intro h
    have hopening : ∃ opening, FirstOpening text start opening := by
      by_contra hnot
      rw [balancedEnd_eq_none_of_not hnot] at h
      cases h
    obtain ⟨opening, hopening⟩ := hopening
    obtain ⟨before, front, rest, rfl, rfl, rfl, hfront⟩ := hopening.exists_append
    rw [balancedEnd_append_opening before hfront, Option.map_eq_some_iff] at h
    obtain ⟨⟨body, after⟩, hclose, rfl⟩ := h
    obtain ⟨rfl, hblock⟩ := close_eq_some_iff.1 hclose
    have htext : before ++ (front ++ '{' :: (body ++ after))
        = before ++ front ++ '{' :: body ++ after := by
      simp
    show EndsAt _ _ (Text.size (before ++ (front ++ '{' :: body)))
    rw [htext] at hopening ⊢
    rw [← List.append_assoc before]
    refine ⟨_, hopening, ?_, Text.admits_append _ _ _, ?_⟩
    · rw [Text.size_append _ ('{' :: body)]
      exact Nat.le_add_right _ _
    · rwa [Text.slice_append]
  · rintro ⟨opening, hopening, hle, hadmits, hblock⟩
    obtain ⟨before, front, rest, rfl, rfl, rfl, hfront⟩ := hopening.exists_append
    obtain ⟨above, block, after, htext, hspan⟩ := Text.exists_append_of_admits hadmits hle
    obtain ⟨hsize, rfl⟩ := Span.mk.inj hspan
    -- the brace that opens the block is the first one
    obtain ⟨rfl, hahead⟩ : before ++ front = above ∧ '{' :: rest = block ++ after := by
      refine Text.append_inj_of_size ?_ hsize
      simpa only [List.append_assoc] using htext
    have hslice : Text.slice (before ++ (front ++ '{' :: rest))
        ⟨Text.size (before ++ front), Text.size (before ++ front ++ block)⟩ = block := by
      rw [htext, Text.slice_append]
    rw [hslice] at hblock
    obtain ⟨body, rfl⟩ : ∃ body, block = '{' :: body := by
      obtain ⟨_⟩ := hblock
      exact ⟨_, rfl⟩
    have hclose := close_eq_some_iff.2 ⟨(List.cons.inj hahead).2, hblock⟩
    rw [balancedEnd_append_opening before hfront, hclose, Option.map_some, List.append_assoc]

theorem EndsAt.unique {text : Text} {start stop stop' : Nat} (h : EndsAt text start stop)
    (h' : EndsAt text start stop') : stop = stop' := by
  rw [← balancedEnd_eq_some_iff] at h h'
  exact Option.some.inj (h.symm.trans h')

/-- From the first opening brace on there is no end if and only if each beginning leaves a block
open. -/
theorem FirstOpening.balancedEnd_eq_none_iff {text : Text} {start opening : Nat}
    (h : FirstOpening text start opening) :
    balancedEnd text start = none ↔ ∀ front, front <+: text.dropBytes opening → front ≠ [] →
      front.count '}' < front.count '{' := by
  obtain ⟨before, above, rest, rfl, rfl, rfl, habove⟩ := h.exists_append
  rw [balancedEnd_append_opening before habove, Option.map_eq_none_iff, close_eq_none_iff,
    ← List.append_assoc, Text.dropBytes_size_append]
  -- the beginnings with a character are those of what follows the brace, with the brace in front
  have hcount : ∀ front : Text, ('{' :: front).count '}' < ('{' :: front).count '{' ↔
      front.count '}' < front.count '{' + 1 := by
    intro front
    rw [List.count_cons_self, List.count_cons_of_ne (by decide)]
  constructor
  · intro hopen front hfront hne
    obtain hnil | ⟨tail, rfl, htail⟩ := List.prefix_cons_iff.1 hfront
    · exact absurd hnil hne
    · exact (hcount tail).2 (hopen tail htail)
  · intro hopen tail htail
    exact (hcount tail).1
      (hopen _ ((List.prefix_cons_inj '{').2 htail) (List.cons_ne_nil _ _))

/-- From the first opening brace on the loop over the bytes has an answer, which is the end. -/
theorem FirstOpening.countFrom_eq {text : Text} {start opening : Nat}
    (h : FirstOpening text start opening) :
    countFrom opening 0 (text.bytes.drop opening) = some (balancedEnd text start) := by
  obtain ⟨before, front, rest, rfl, rfl, rfl, hfront⟩ := h.exists_append
  rw [balancedEnd_append_opening before hfront, ← List.append_assoc, Text.drop_bytes_append]
  have hfirst : countFrom (Text.size (before ++ front)) 0 (Text.bytes ('{' :: rest))
      = countFrom (Text.size (before ++ front) + 1) 1 (Text.bytes rest) := rfl
  rw [hfirst, countFrom_bytes (Nat.le_refl 1)]
  congr 1
  cases close 1 rest with
  | none => rfl
  | some parts =>
    simp only [Option.map_some, ← List.append_assoc, Text.size_append, Text.size]
    congr 1
    show _ + 1 + _ = _ + (1 + _)
    omega

/-- A block that ends takes up a part of the text with characters at both ends. -/
theorem EndsAt.lt_and_admits {text : Text} {start stop : Nat} (h : EndsAt text start stop) :
    start < stop ∧ text.Admits ⟨start, stop⟩ := by
  obtain ⟨opening, hopening, hle, hadmits, hblock⟩ := h
  refine ⟨Nat.lt_of_le_of_lt hopening.start_le ?_, hopening.admits.1, hadmits.2⟩
  obtain ⟨above, block, after, rfl, hspan⟩ := Text.exists_append_of_admits hadmits hle
  obtain ⟨rfl, rfl⟩ := Span.mk.inj hspan
  rw [Text.slice_append] at hblock
  obtain ⟨_⟩ := hblock
  rw [Text.size_append]
  exact Nat.lt_add_of_pos_right (Text.size_pos_of_ne_nil (List.cons_ne_nil _ _))

end Braces

/-! ## Cutting out -/

open Braces

/-- A function is truncated if and only if it has a head and the first block behind its start does
not end. -/
theorem extractFunction_eq_truncated_iff {text : Text} {name : String} {request : Request} :
    extractFunction text name = .error (.truncated request) ↔
      request = ⟨.function, name⟩ ∧
        ∃ head, locateFunction text name = some head ∧ balancedEnd text head.start = none := by
  rw [extractFunction]
  cases locateFunction text name with
  | none => simp
  | some head =>
    cases hend : balancedEnd text head.start with
    | none => simp [extractFrom?, blockSpan?, hend, eq_comm]
    | some stop => simp [extractFrom?, blockSpan?, hend]

/-- The end of a block is found exactly where the first opening brace at or after the start opens a
balanced block that ends there, and no such block ends at two places. Behind a boundary with a brace
behind it, none is found exactly if every beginning from that brace on leaves a block open; and the
loop over the bytes, which never closes a block while none is open, finds the same end. With the end
the text is cut at the start and at the end, both boundaries; without it nothing is cut. So a
function is truncated exactly if it has a head and no end is found from the start of the head on. -/
theorem balancedEnd_exact (text : Text) (start : Nat) :
    (∀ stop, balancedEnd text start = some stop ↔ EndsAt text start stop) ∧
    (∀ stop stop', EndsAt text start stop → EndsAt text start stop' → stop = stop') ∧
    ((∃ opening, FirstOpening text start opening) ↔
      text.IsBoundary start ∧ '{' ∈ text.dropBytes start) ∧
    (∀ opening, FirstOpening text start opening →
      (balancedEnd text start = none ↔ ∀ front, front <+: text.dropBytes opening → front ≠ [] →
        front.count '}' < front.count '{') ∧
      countFrom opening 0 (text.bytes.drop opening) = some (balancedEnd text start)) ∧
    (∀ stop, balancedEnd text start = some stop →
      start < stop ∧ text.Admits ⟨start, stop⟩ ∧ blockSpan? text start = some ⟨start, stop⟩ ∧
      extractFrom? text start
        = some ⟨text.slice ⟨start, stop⟩, text.takeBytes start ++ text.dropBytes stop⟩) ∧
    (balancedEnd text start = none →
      blockSpan? text start = none ∧ extractFrom? text start = none) ∧
    ∀ name request, extractFunction text name = .error (.truncated request) ↔
      request = ⟨.function, name⟩ ∧
        ∃ head, locateFunction text name = some head ∧ balancedEnd text head.start = none := by
  refine ⟨fun stop => balancedEnd_eq_some_iff, fun stop stop' => EndsAt.unique,
    exists_firstOpening_iff, fun opening hopening => ?_, fun stop hstop => ?_, fun hnone => ?_,
    fun name request => extractFunction_eq_truncated_iff⟩
  · exact ⟨hopening.balancedEnd_eq_none_iff, hopening.countFrom_eq⟩
  · obtain ⟨hlt, hadmits⟩ := (balancedEnd_eq_some_iff.1 hstop).lt_and_admits
    have hspan : blockSpan? text start = some ⟨start, stop⟩ := by
      rw [blockSpan?, hstop, Option.map_some]
    refine ⟨hlt, hadmits, hspan, ?_⟩
    rw [extractFrom?, hspan]
    rfl
  · have hspan : blockSpan? text start = none := by rw [blockSpan?, hnone, Option.map_none]
    exact ⟨hspan, by rw [extractFrom?, hspan, Option.map_none]⟩

/-- No block is found from inside a character on, though one opens behind it. -/
example : balancedEnd ['é', '{', '{', '}', 'x', '}'] 1 = none ∧
    balancedEnd ['é', '{', '{', '}', 'x', '}'] 2 = some 7 := by
  decide

end Carver
