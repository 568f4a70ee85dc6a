import Carver.Proofs.ExactLocation
import Carver.Proofs.ImplLocation

/-!
# Removing spans one by one

What a text is without some spans is told character by character: a character stays if its offset
lies in none of them (`Text.without`). The text can also lose the spans one after the other, each
time closing the gap. If the spans are laid out at boundaries and apart from each other, one such
step does not change what the text is without all of them (`Laid.without_erase`), and the later
spans are laid out in what is left (`Laid.erase`). So every order leaves the same text, and the one
pass over ascending spans is one way to get there (`extractStruct_eq`).
-/

namespace Carver

/-- Whether the offset lies in the span. -/
def Span.holds (span : Span) (offset : Nat) : Bool :=
  span.start ≤ offset && offset < span.stop

/-- Whether the offset lies in none of the spans. -/
def Span.outside (spans : List Span) (offset : Nat) : Bool :=
  spans.all fun span => !span.holds offset

/-- One span ends before the other one starts. -/
def Span.Apart (a b : Span) : Prop :=
  a.stop ≤ b.start ∨ b.stop ≤ a.start

/-- Where a span comes to lie once `cut` is gone: behind `cut` it moves up by the size of `cut`. -/
def Span.closeUp (cut span : Span) : Span :=
  if cut.stop ≤ span.start then
    ⟨span.start - (cut.stop - cut.start), span.stop - (cut.stop - cut.start)⟩
  else span

namespace Text

/-- The characters whose offsets are accepted; the first one has the offset `base`. -/
def keep (accepts : Nat → Bool) (base : Nat) : Text → Text
  | [] => []
  | c :: rest =>
    if accepts base then c :: keep accepts (base + c.utf8Size) rest
    else keep accepts (base + c.utf8Size) rest

/-- The characters whose offsets lie in none of the spans. -/
def without (text : Text) (spans : List Span) : Text :=
  keep (Span.outside spans) 0 text

/-- The text after the spans were removed in the order of the list, if each of them could be. All
spans are given by their offsets in the whole text. -/
def eraseInTurn? (text : Text) : List Span → Option Text
  | [] => some text
  | span :: later => (text.erase? span).bind (·.eraseInTurn? (later.map span.closeUp))
termination_by spans => spans.length

/-- The text after the spans were removed, the last one first, and what was removed, in the order of
the list. No offset is ever adjusted. -/
def cutBackwards? (text : Text) : List Span → Option (List Text × Text)
  | [] => some ([], text)
  | span :: later =>
    (cutBackwards? text later).bind fun (pieces, rest) =>
      (rest.erase? span).map (rest.slice span :: pieces, ·)

/-! ## Keeping some characters -/

theorem keep_append (accepts : Nat → Bool) (base : Nat) (a b : Text) :
    keep accepts base (a ++ b) = keep accepts base a ++ keep accepts (base + size a) b := by
  induction a generalizing base with
  | nil => rfl
  | cons c rest ih =>
    simp only [List.cons_append, keep, size, ih, Nat.add_assoc]
    split <;> rfl

theorem keep_congr {accepts accepts' : Nat → Bool} {base : Nat} {text : Text}
    (h : ∀ offset, base ≤ offset → offset < base + size text → accepts offset = accepts' offset) :
    keep accepts base text = keep accepts' base text := by
  induction text generalizing base with
  | nil => rfl
  | cons c rest ih =>
    have hpos := c.utf8Size_pos
    have hrest : keep accepts (base + c.utf8Size) rest = keep accepts' (base + c.utf8Size) rest :=
      ih fun offset hle hlt => h offset (by omega) (by rw [size]; omega)
    rw [keep, keep, hrest, h base (Nat.le_refl _) (by rw [size]; omega)]

theorem keep_add (accepts : Nat → Bool) (base n : Nat) (text : Text) :
    keep accepts (base + n) text = keep (fun offset => accepts (offset + n)) base text := by
  induction text generalizing base with
  | nil => rfl
  | cons c rest ih => rw [keep, keep, Nat.add_right_comm, ih]

theorem keep_true (base : Nat) (text : Text) : keep (fun _ => true) base text = text := by
  induction text generalizing base with
  | nil => rfl
  | cons c rest ih => rw [keep, if_pos rfl, ih]

theorem keep_false (base : Nat) (text : Text) : keep (fun _ => false) base text = [] := by
  induction text generalizing base with
  | nil => rfl
  | cons c rest ih => rw [keep, if_neg Bool.false_ne_true, ih]

theorem without_nil (text : Text) : text.without [] = text :=
  keep_true 0 text

theorem without_perm {spans spans' : List Span} (h : spans.Perm spans') (text : Text) :
    text.without spans = text.without spans' :=
  keep_congr fun _ _ _ => h.all_eq

/-- A span splits what is kept: nothing in it stays. -/
theorem keep_outside_append (base : Nat) (before piece after : Text) (spans : List Span) :
    keep (Span.outside (⟨base + size before, base + size before + size piece⟩ :: spans)) base
        (before ++ (piece ++ after))
      = keep (Span.outside spans) base before
        ++ keep (Span.outside spans) (base + size before + size piece) after := by
  have hpiece : keep (Span.outside (⟨base + size before, base + size before + size piece⟩ :: spans))
      (base + size before) piece = [] := by
    rw [← keep_false (base + size before) piece]
    refine keep_congr fun offset hle hlt => ?_
    simp [Span.outside, Span.holds, hle, hlt]
  rw [keep_append, keep_append, hpiece, List.nil_append]
  congr 1
  · refine keep_congr fun offset _ hlt => ?_
    simp [Span.outside, Span.holds, Nat.not_le.2 hlt]
  · refine keep_congr fun offset hle _ => ?_
    simp [Span.outside, Span.holds, Nat.not_lt.2 hle]

theorem without_append (before piece after : Text) (spans : List Span) :
    (before ++ piece ++ after).without (⟨size before, size (before ++ piece)⟩ :: spans)
      = keep (Span.outside spans) 0 before
        ++ keep (Span.outside spans) (size (before ++ piece)) after := by
  have hsplit := keep_outside_append 0 before piece after spans
  rwa [Nat.zero_add, ← size_append, ← List.append_assoc] at hsplit

/-- Characters in front of all spans stay. -/
theorem keep_outside_of_le {base : Nat} {text : Text} {spans : List Span}
    (h : ∀ span ∈ spans, base + size text ≤ span.start) :
    keep (Span.outside spans) base text = text := by
  refine (keep_congr fun offset _ hlt => ?_).trans (keep_true base text)
  rw [Span.outside, List.all_eq_true]
  intro span hspan
  have hstart := h span hspan
  simp only [Span.holds, Bool.not_eq_true', Bool.and_eq_false_iff, decide_eq_false_iff_not]
  omega

/-- Text in front of all spans is not touched. -/
theorem without_append_of_le {front : Text} {spans : List Span}
    (h : ∀ span ∈ spans, size front ≤ span.start) (after : Text) :
    (front ++ after).without spans
      = front ++ keep (Span.outside spans) (size front) after := by
  rw [without, keep_append, Nat.zero_add, keep_outside_of_le]
  rwa [Nat.zero_add]

end Text

/-! ## Spans that can be removed in any order -/

/-- The spans lie at boundaries of the text and apart from each other. -/
structure Laid (text : Text) (spans : List Span) : Prop where
  admits : ∀ span ∈ spans, text.Admits span
  ordered : ∀ span ∈ spans, span.start ≤ span.stop
  apart : spans.Pairwise Span.Apart

namespace Span

theorem Apart.symm {a b : Span} (h : a.Apart b) : b.Apart a :=
  Or.symm h

theorem closeUp_start (cut span : Span) :
    (cut.closeUp span).start =
      if cut.stop ≤ span.start then span.start - (cut.stop - cut.start) else span.start := by
  rw [closeUp]
  split <;> rfl

theorem closeUp_stop (cut span : Span) :
    (cut.closeUp span).stop =
      if cut.stop ≤ span.start then span.stop - (cut.stop - cut.start) else span.stop := by
  rw [closeUp]
  split <;> rfl

/-- An offset lies in a span that moved up if the offset it came from lay in the span. -/
theorem holds_closeUp {cut span : Span} (hcut : cut.start ≤ cut.stop)
    (hspan : span.start ≤ span.stop) (h : cut.Apart span) (offset : Nat) :
    (cut.closeUp span).holds offset
      = span.holds (if offset < cut.start then offset else offset + (cut.stop - cut.start)) := by
  rw [Bool.eq_iff_iff]
  simp only [holds, Bool.and_eq_true, decide_eq_true_eq, closeUp_start, closeUp_stop]
  unfold Apart at h
  split <;> split <;> omega

theorem closeUp_le {cut span : Span} (h : span.start ≤ span.stop) :
    (cut.closeUp span).start ≤ (cut.closeUp span).stop := by
  rw [closeUp_start, closeUp_stop]
  split <;> omega

/-- Spans that are apart stay apart when a span apart from both of them is gone. -/
theorem Apart.closeUp {cut a b : Span} (h : a.Apart b) (hcut : cut.start ≤ cut.stop)
    (hb : b.start ≤ b.stop) (hcuta : cut.Apart a) (hcutb : cut.Apart b) :
    (cut.closeUp a).Apart (cut.closeUp b) := by
  unfold Apart at *
  simp only [closeUp_start, closeUp_stop]
  split <;> split <;> omega

end Span

namespace Laid

variable {text : Text} {cut : Span} {spans later : List Span}

theorem head (h : Laid text (cut :: later)) :
    ∃ before piece after, text = before ++ piece ++ after ∧
      cut = ⟨Text.size before, Text.size (before ++ piece)⟩ :=
  Text.exists_append_of_admits (h.admits cut List.mem_cons_self) (h.ordered cut List.mem_cons_self)

theorem tail (h : Laid text (cut :: later)) : Laid text later where
  admits span hspan := h.admits span (List.mem_cons_of_mem _ hspan)
  ordered span hspan := h.ordered span (List.mem_cons_of_mem _ hspan)
  apart := (List.pairwise_cons.1 h.apart).2

theorem perm (h : Laid text spans) {order : List Span} (horder : order.Perm spans) :
    Laid text order where
  admits span hspan := h.admits span (horder.mem_iff.1 hspan)
  ordered span hspan := h.ordered span (horder.mem_iff.1 hspan)
  apart := h.apart.perm horder.symm Span.Apart.symm

/-- When one span is removed the others are laid out in what is left. -/
theorem erase (h : Laid text (cut :: later)) :
    Laid (text.erase cut) (later.map cut.closeUp) := by
  have hcut := h.ordered cut List.mem_cons_self
  have hapart : ∀ span ∈ later, cut.Apart span := (List.pairwise_cons.1 h.apart).1
  refine ⟨?_, ?_, ?_⟩
  · rw [List.forall_mem_map]
    intro span hspan
    obtain ⟨hstart, hstop⟩ := h.tail.admits span hspan
    have hle := h.tail.ordered span hspan
    have hspanApart := hapart span hspan
    obtain ⟨before, piece, after, rfl, rfl⟩ := h.head
    have hsize : Text.size (before ++ piece) - Text.size before = Text.size piece := by
      rw [Text.size_append, Nat.add_sub_cancel_left]
    rw [Text.erase_append, Span.closeUp]
    split
    · rename_i hbehind
      dsimp only at hbehind ⊢
      rw [hsize]
      exact ⟨hstart.behind hbehind, hstop.behind (hbehind.trans hle)⟩
    · rename_i hnot
      have hbefore := hspanApart.resolve_left hnot
      exact ⟨hstart.before (hle.trans hbefore), hstop.before hbefore⟩
  · rw [List.forall_mem_map]
    exact fun span hspan => Span.closeUp_le (h.tail.ordered span hspan)
  · rw [List.pairwise_map]
    refine h.tail.apart.imp_of_mem fun {a b} ha hb hab => ?_
    exact hab.closeUp hcut (h.tail.ordered b hb) (hapart a ha) (hapart b hb)

/-- Removing one span does not change what the text is without all of them. -/
theorem without_erase (h : Laid text (cut :: later)) :
    (text.erase cut).without (later.map cut.closeUp) = text.without (cut :: later) := by
  have hmoved : ∀ offset, Span.outside (later.map cut.closeUp) offset
      = Span.outside later
        (if offset < cut.start then offset else offset + (cut.stop - cut.start)) := by
    intro offset
    rw [Span.outside, Span.outside, List.all_map, Bool.eq_iff_iff, List.all_eq_true,
      List.all_eq_true]
    refine forall₂_congr fun span hspan => ?_
    rw [Function.comp_apply, Span.holds_closeUp (h.ordered cut List.mem_cons_self)
      (h.tail.ordered span hspan) ((List.pairwise_cons.1 h.apart).1 span hspan)]
  obtain ⟨before, piece, after, rfl, rfl⟩ := h.head
  rw [Text.erase_append, Text.without_append, Text.without, Text.keep_append, Nat.zero_add]
  -- in front of the removed piece offsets are the same, behind it they differ by its size
  congr 1
  · refine Text.keep_congr fun offset _ hlt => ?_
    rw [Nat.zero_add] at hlt
    rw [hmoved, if_pos hlt]
  · rw [Text.size_append before piece, Text.keep_add]
    refine Text.keep_congr fun offset hle _ => ?_
    rw [← Text.size_append, hmoved, if_neg (Nat.not_lt.2 hle), Text.size_append,
      Nat.add_sub_cancel_left]

/-- In whichever order the spans are removed, the characters that lie in none of them are left. -/
theorem eraseInTurn?_eq (h : Laid text spans) :
    text.eraseInTurn? spans = some (text.without spans) := by
  -- by induction on their number, as each step changes the text and all the spans that are left
  induction hlength : spans.length generalizing text spans with
  | zero =>
    rw [List.length_eq_zero_iff.1 hlength, Text.eraseInTurn?, Text.without_nil]
  | succ n ih =>
    obtain ⟨cut, later, rfl⟩ := List.exists_cons_of_length_eq_add_one hlength
    have herase : text.erase? cut = some (text.erase cut) :=
      if_pos (h.admits cut List.mem_cons_self)
    rw [Text.eraseInTurn?, herase, Option.bind_some,
      ih h.erase (by rw [List.length_map]; exact Nat.succ.inj hlength), h.without_erase]

/-! ## Ascending spans -/

/-- Back to front, each span is where it lay in the whole text when it is its turn. -/
theorem cutBackwards?_eq (h : Laid text spans)
    (hascending : spans.Pairwise fun span next => span.stop ≤ next.start) :
    text.cutBackwards? spans = some (spans.map text.slice, text.without spans) := by
  induction spans with
  | nil => rw [Text.cutBackwards?, Text.without_nil, List.map_nil]
  | cons span later ih =>
    obtain ⟨hfirst, hlater⟩ := List.pairwise_cons.1 hascending
    rw [Text.cutBackwards?, ih h.tail hlater, Option.bind_some]
    obtain ⟨before, piece, after, rfl, rfl⟩ := h.head
    -- nothing up to the end of the first span is gone yet
    have hrest := Text.without_append_of_le hfirst after
    have hbefore : Text.keep (Span.outside later) 0 before = before := by
      refine Text.keep_outside_of_le fun next hnext => Nat.le_trans ?_ (hfirst next hnext)
      rw [Nat.zero_add, Text.size_append]
      exact Nat.le_add_right _ _
    dsimp only
    rw [hrest, Text.erase?_append, Text.slice_append, Text.without_append, hbefore, List.map_cons,
      Text.slice_append, Option.map_some]

/-- One pass from left to right cuts out the same pieces and leaves the same text. -/
theorem cutSpans_eq {front ahead : Text} (h : Laid (front ++ ahead) spans)
    (hascending : spans.Pairwise fun span next => span.stop ≤ next.start)
    (hle : ∀ span ∈ spans, Text.size front ≤ span.start) :
    cutSpans (Text.size front) ahead spans
      = (spans.map (front ++ ahead).slice,
        Text.keep (Span.outside spans) (Text.size front) ahead) := by
  induction spans generalizing front ahead with
  | nil => rw [cutSpans, List.map_nil, Text.keep_outside_of_le (by simp)]
  | cons span later ih =>
    obtain ⟨hfirst, hlater⟩ := List.pairwise_cons.1 hascending
    obtain ⟨before, piece, after, htext, rfl⟩ := h.head
    rw [List.append_assoc] at htext
    obtain ⟨mid, rfl, rfl⟩ := Text.exists_append_of_size_le htext (hle _ List.mem_cons_self)
    have hwhole : front ++ (mid ++ (piece ++ after)) = front ++ mid ++ piece ++ after := by
      simp only [List.append_assoc]
    rw [hwhole] at h ⊢
    -- behind `front` the text `mid` stays, `piece` goes, and the later spans are cut out of `after`
    have hcut := cutSpans_append (Text.size (front ++ mid)) piece after later
    rw [← Text.size_append, ih h.tail hlater hfirst] at hcut
    have hstarts : ∀ span ∈ ⟨Text.size (front ++ mid), Text.size (front ++ mid ++ piece)⟩ :: later,
        Text.size front + Text.size mid ≤ span.start := by
      rw [← Text.size_append, List.forall_mem_cons]
      refine ⟨Nat.le_refl _, fun next hnext => Nat.le_trans ?_ (hfirst next hnext)⟩
      rw [Text.size_append _ piece]
      exact Nat.le_add_right _ _
    have hmid : Text.keep (Span.outside later) (Text.size front) mid = mid := by
      refine Text.keep_outside_of_le fun next hnext => ?_
      exact hstarts next (List.mem_cons_of_mem _ hnext)
    have hleft := Text.keep_outside_append (Text.size front) mid piece after later
    rw [← Text.size_append, ← Text.size_append, hmid] at hleft
    rw [cutSpans_append_of_le mid hstarts, ← Text.size_append, hcut, hleft, List.map_cons,
      Text.slice_append]

/-- The text is left as it is without the spans, and the pieces are what lay in them. -/
theorem cutSpans_zero (h : Laid text spans)
    (hascending : spans.Pairwise fun span next => span.stop ≤ next.start) :
    cutSpans 0 text spans = (spans.map text.slice, text.without spans) :=
  @cutSpans_eq spans [] text h hascending fun _ _ => Nat.zero_le _

end Laid

/-! ## Structs and their impl blocks -/

/-- The text without the struct of this name, if there is one. -/
def structless (text : Text) (name : String) : Text :=
  text.without (locateStruct text name).toList

theorem laid_of_locateStruct {text : Text} {name : String} {span : Span}
    (h : locateStruct text name = some span) : Laid text [span] := by
  obtain ⟨hit, hfind, rfl⟩ := Option.map_eq_some_iff.1 h
  obtain ⟨before, word, after, rfl, -, hspan⟩ :=
    (Shape.describes_struct name).spans_of_find? hfind
  rw [hspan]
  refine ⟨?_, ?_, List.pairwise_singleton _ _⟩
  · rw [List.forall_mem_singleton]
    exact Text.admits_append before word after
  · rw [List.forall_mem_singleton, Text.size_append]
    exact Nat.le_add_right _ _

theorem structless_eq (text : Text) (name : String) :
    structless text name = ((locateStruct text name).map text.erase).getD text := by
  rw [structless]
  cases h : locateStruct text name with
  | none => exact Text.without_nil text
  | some span =>
    have hall := (laid_of_locateStruct h).without_erase
    exact hall.symm.trans (Text.without_nil _)

theorem laid_locateImpls (text : Text) (name : String) : Laid text (locateImpls text name) := by
  have hmarks := marks_locateImpls text name
  refine ⟨fun span hspan => ?_, fun span hspan => Nat.le_of_lt (hmarks.start_lt_stop span hspan),
    hmarks.pairwise.imp Or.inl⟩
  obtain @⟨before, front, inner, after, htext, rfl⟩ := hmarks.holdsImpl span hspan
  have hadmits := Text.admits_append before (front ++ '{' :: (inner ++ ['\n', '}'])) after
  rw [List.nil_append] at htext
  simpa [htext] using hadmits

/-- A struct is cut out with its impl blocks as the spans tell. -/
theorem cutStruct_eq (text : Text) (name : String) :
    cutStruct text name =
      ⟨(locateStruct text name).map text.slice,
        (locateImpls (structless text name) name).map (structless text name).slice,
        (structless text name).without (locateImpls (structless text name) name)⟩ := by
  have hascending := (marks_locateImpls (structless text name) name).pairwise
  have hcut := (laid_locateImpls (structless text name) name).cutSpans_zero hascending
  rw [cutStruct, ← structless_eq]
  simp only [hcut]

/-- With `rest` for the text without the struct and `spans` for the impl blocks in it: if there is a
struct or a span, the extraction succeeds, its blocks are the struct and what lies in the spans, and
the characters of `rest` in none of the spans remain. Back to front the same pieces come out and the
same text remains, and that text remains in every other order too. With neither a struct nor a span
nothing is found, and no block is ever truncated. -/
theorem extractStruct_eq (text : Text) (name : String) :
    let rest := structless text name
    let spans := locateImpls rest name
    (if locateStruct text name = none ∧ spans = [] then
        extractStruct text name = .error (.notFound ⟨.struct, name⟩)
      else
        ∃ cut, extractStruct text name = .ok cut ∧
          cut.blocks = ((locateStruct text name).map text.slice).toList ++ spans.map rest.slice ∧
          cut.remaining = rest.without spans) ∧
    spans.Pairwise (fun span next => span.stop ≤ next.start) ∧
    rest.cutBackwards? spans = some (spans.map rest.slice, rest.without spans) ∧
    (∀ order, order.Perm spans → rest.eraseInTurn? order = some (rest.without spans)) ∧
    ∀ request, extractStruct text name ≠ .error (.truncated request) := by
  intro rest spans
  have hlaid : Laid rest spans := laid_locateImpls rest name
  have hascending : spans.Pairwise fun span next => span.stop ≤ next.start :=
    (marks_locateImpls rest name).pairwise
  have hcut : cutStruct text name
      = ⟨(locateStruct text name).map text.slice, spans.map rest.slice, rest.without spans⟩ :=
    cutStruct_eq text name
  have hempty : (cutStruct text name).blocks.isEmpty = true
      ↔ locateStruct text name = none ∧ spans = [] := by
    rw [hcut]
    simp [StructExtraction.blocks]
  refine ⟨?_, hascending, hlaid.cutBackwards?_eq hascending, fun order horder => ?_, ?_⟩
  · split
    · rename_i hnone
      exact if_pos (hempty.2 hnone)
    · rename_i hsome
      refine ⟨_, if_neg fun hblocks => hsome (hempty.1 hblocks), ?_, ?_⟩
      · rw [hcut]
        rfl
      · rw [hcut]
  · rw [(hlaid.perm horder).eraseInTurn?_eq, Text.without_perm horder]
  · intro request herror
    rw [extractStruct] at herror
    split at herror <;> simp at herror

/-- A struct with two impl blocks. -/
def twoImpls : Text :=
  "struct N \x7b\n\x7d\nimpl N \x7b\n\x7d\n\nimpl N \x7b\n\x7d\n".toList

/-- The blocks can also be removed from front to back: then the second one moves up by ten bytes. -/
theorem extractStruct_eq_sample :
    locateImpls (structless twoImpls "N") "N" = [⟨1, 11⟩, ⟨13, 23⟩] ∧
    Span.closeUp ⟨1, 11⟩ ⟨13, 23⟩ = ⟨3, 13⟩ ∧
    (structless twoImpls "N").eraseInTurn? [⟨1, 11⟩, ⟨13, 23⟩] = some "\n\n\n\n".toList ∧
    (structless twoImpls "N").eraseInTurn? [⟨13, 23⟩, ⟨1, 11⟩] = some "\n\n\n\n".toList := by
  have hspans : locateImpls (structless twoImpls "N") "N" = [⟨1, 11⟩, ⟨13, 23⟩] := by
    decide +kernel
  have hleft : (structless twoImpls "N").without [⟨1, 11⟩, ⟨13, 23⟩] = "\n\n\n\n".toList := by
    decide +kernel
  obtain ⟨-, -, -, horders, -⟩ := extractStruct_eq twoImpls "N"
  rw [hspans, hleft] at horders
  exact ⟨hspans, rfl, horders _ (List.Perm.refl _), horders _ (List.Perm.swap _ _ _)⟩

end Carver
