import Carver.Proofs.BalancedBlocks
import Carver.Proofs.SpanRemoval

/-!
# Spans that fit their text

A span fits a text if it is in order, ends in the text, and has no end inside a character
(`Text.Fits`). Only such spans can be cut out of UTF-8. Every span that is located fits
(`Pattern.fits_of_derives`, `Braces.EndsAt.fits`, `Laid.fits`), and a span in front of others still
fits when those are gone (`Laid.fits_without`).

The operations with a question mark cut only where it is possible. What stands around a span can be
joined even if the span is out of order, so that one asks for less
(`Text.joinAround?_eq_none_iff`).
-/

namespace Carver

namespace Text

/-! ## Offsets inside characters -/

/-- Some but not all bytes of a character lie before the offset. -/
def InsideChar (text : Text) (offset : Nat) : Prop :=
  ∃ before c after, text = before ++ c :: after ∧
    size before < offset ∧ offset < size before + c.utf8Size

theorem size_takeBytes_le (n : Nat) (text : Text) : size (takeBytes n text) ≤ n := by
  induction text generalizing n with
  | nil => exact Nat.zero_le n
  | cons c rest ih =>
    rw [takeBytes]
    split
    · have hrest := ih (n - c.utf8Size)
      rw [size]
      omega
    · exact Nat.zero_le n

/-- The longest beginning is followed by a character that would be too much. -/
theorem lt_size_takeBytes_add {n : Nat} {text after : Text} {c : Char}
    (h : dropBytes n text = c :: after) : n < size (takeBytes n text) + c.utf8Size := by
  induction text generalizing n with
  | nil => cases h
  | cons d rest ih =>
    rw [dropBytes] at h
    rw [takeBytes]
    split at h
    · rename_i hle
      have hrest := ih h
      rw [if_pos hle, size]
      omega
    · rename_i hnot
      obtain ⟨rfl, -⟩ := List.cons.inj h
      rw [if_neg hnot, size]
      omega

theorem IsBoundary.not_insideChar {text : Text} {n : Nat} (h : text.IsBoundary n) :
    ¬ text.InsideChar n := by
  rintro ⟨before, c, after, htext, hlt, hgt⟩
  obtain ⟨a, b, rfl, rfl⟩ := exists_append_of_isBoundary h
  obtain ⟨mid, rfl, hrest⟩ := exists_append_of_size_le htext.symm (Nat.le_of_lt hlt)
  -- the boundary lies behind `before`, hence behind the whole of `c`
  cases mid with
  | nil =>
    rw [List.append_nil] at hlt
    exact Nat.lt_irrefl _ hlt
  | cons d mid =>
    obtain ⟨rfl, -⟩ := List.cons.inj hrest
    rw [size_append, size] at hgt
    omega

/-- Boundaries are the offsets in the text that are not inside a character. -/
theorem isBoundary_iff {text : Text} {n : Nat} :
    text.IsBoundary n ↔ n ≤ size text ∧ ¬ text.InsideChar n := by
  constructor
  · intro h
    refine ⟨?_, h.not_insideChar⟩
    obtain ⟨a, b, rfl, rfl⟩ := exists_append_of_isBoundary h
    rw [size_append]
    exact Nat.le_add_right _ _
  · rintro ⟨hle, hnot⟩
    have hwhole := takeBytes_append_dropBytes n text
    have htake := size_takeBytes_le n text
    by_contra hne
    have hlt : size (takeBytes n text) < n := Nat.lt_of_le_of_ne htake hne
    cases hdrop : dropBytes n text with
    | nil =>
      rw [hdrop, List.append_nil] at hwhole
      rw [hwhole] at hlt
      omega
    | cons c after =>
      rw [hdrop] at hwhole
      exact hnot ⟨_, c, after, hwhole.symm, hlt, lt_size_takeBytes_add hdrop⟩

theorem not_isBoundary_iff {text : Text} {n : Nat} :
    ¬ text.IsBoundary n ↔ size text < n ∨ text.InsideChar n := by
  rw [isBoundary_iff, not_and_or, Nat.not_le, not_not]

/-! ## Spans -/

/-- The span is in order and ends in the text, and neither end of it is inside a character. -/
structure Fits (text : Text) (span : Span) : Prop where
  start_le_stop : span.start ≤ span.stop
  stop_le_size : span.stop ≤ size text
  start_outside : ¬ text.InsideChar span.start
  stop_outside : ¬ text.InsideChar span.stop

theorem fits_iff {text : Text} {span : Span} :
    text.Fits span ↔ span.start ≤ span.stop ∧ text.Admits span := by
  constructor
  · intro h
    have hstart := h.start_le_stop.trans h.stop_le_size
    exact ⟨h.start_le_stop, isBoundary_iff.2 ⟨hstart, h.start_outside⟩,
      isBoundary_iff.2 ⟨h.stop_le_size, h.stop_outside⟩⟩
  · rintro ⟨hle, hstart, hstop⟩
    exact ⟨hle, (isBoundary_iff.1 hstop).1, hstart.not_insideChar, hstop.not_insideChar⟩

instance (text : Text) (span : Span) : Decidable (text.Fits span) :=
  decidable_of_iff _ fits_iff.symm

theorem fits_append (before piece after : Text) :
    Fits (before ++ piece ++ after) ⟨size before, size (before ++ piece)⟩ := by
  refine fits_iff.2 ⟨?_, admits_append before piece after⟩
  rw [size_append]
  exact Nat.le_add_right _ _

/-! ## Checked cuts -/

/-- The text up to the offset, if it is a boundary. -/
def takeBytes? (text : Text) (n : Nat) : Option Text :=
  if IsBoundary text n then some (takeBytes n text) else none

/-- What lies in the span, if it fits. -/
def slice? (text : Text) (span : Span) : Option Text :=
  if text.Fits span then some (text.slice span) else none

/-- The text with nothing in place of the span, if it fits. -/
def cutOut? (text : Text) (span : Span) : Option Text :=
  if text.Fits span then some (text.erase span) else none

/-- What stands before the span and behind it, joined in room for the bytes that are left. There is
no such room if the span has more bytes than the text. -/
def joinAround? (text : Text) (span : Span) : Option Text :=
  if span.stop - span.start ≤ size text then do
    let front ← text.takeBytes? span.start
    let back ← text.dropBytes? span.stop
    return front ++ back
  else none

theorem takeBytes?_size_append (a b : Text) : takeBytes? (a ++ b) (size a) = some a := by
  rw [takeBytes?, if_pos (isBoundary_size_append a b), takeBytes_size_append]

theorem Fits.slice?_eq {text : Text} {span : Span} (h : text.Fits span) :
    text.slice? span = some (text.slice span) :=
  if_pos h

theorem Fits.cutOut?_eq {text : Text} {span : Span} (h : text.Fits span) :
    text.cutOut? span = some (text.erase span) :=
  if_pos h

/-- Two boundaries are enough to join what stands around a span. -/
theorem joinAround?_eq_erase? (text : Text) (span : Span) :
    text.joinAround? span = text.erase? span := by
  rw [joinAround?, takeBytes?, dropBytes?, erase?]
  by_cases hstart : text.IsBoundary span.start
  · by_cases hstop : text.IsBoundary span.stop
    · have hroom : span.stop - span.start ≤ size text :=
        (Nat.sub_le _ _).trans (isBoundary_iff.1 hstop).1
      rw [if_pos hroom, if_pos hstart, if_pos hstop, if_pos ⟨hstart, hstop⟩]
      rfl
    · rw [if_neg hstop, if_neg fun hadmits : text.Admits span => hstop hadmits.2]
      simp
  · rw [if_neg hstart, if_neg fun hadmits : text.Admits span => hstart hadmits.1]
    simp

/-- What stands around a span cannot be joined exactly if the span has more bytes than the text, or
an end of it lies behind the end of the text or inside a character. -/
theorem joinAround?_eq_none_iff {text : Text} {span : Span} :
    text.joinAround? span = none ↔
      size text < span.stop - span.start ∨ size text < span.start ∨ size text < span.stop ∨
        text.InsideChar span.start ∨ text.InsideChar span.stop := by
  have hadmits : text.joinAround? span = none ↔
      (size text < span.start ∨ text.InsideChar span.start) ∨
        size text < span.stop ∨ text.InsideChar span.stop := by
    rw [joinAround?_eq_erase?, erase?, ite_eq_right_iff, ← not_isBoundary_iff,
      ← not_isBoundary_iff, ← not_and_or]
    simp [Admits]
  rw [hadmits]
  constructor
  · rintro ((h | h) | h | h) <;> simp [h]
  · rintro (h | h | h | h | h)
    · exact .inr (.inl (Nat.lt_of_lt_of_le h (Nat.sub_le _ _)))
    all_goals simp [h]

/-- A span out of order doubles what lies between its ends; one that ends inside a character is
refused. -/
example : erase? ['a', 'é'] ⟨3, 1⟩ = some ['a', 'é', 'é'] ∧ erase? ['a', 'é'] ⟨0, 2⟩ = none := by
  decide

theorem Fits.joinAround?_eq {text : Text} {span : Span} (h : text.Fits span) :
    text.joinAround? span = some (text.erase span) := by
  rw [joinAround?_eq_erase?]
  exact if_pos (fits_iff.1 h).2

end Text

/-! ## Located spans -/

namespace Pattern

variable {p : Pattern} {text : Text} {hit : Hit}

/-- A match cuts the text in three: what stands before it, the word it passes, and the rest. -/
theorem exists_append_of_derives (hstart : hit.start ∈ Cursor.onward [] text)
    (h : Derives p hit.start hit.stop) :
    ∃ before word after, text = before ++ word ++ after ∧ p.Spells word ∧
      hit.start.Passes word hit.stop ∧
      hit.span = ⟨Text.size before, Text.size (before ++ word)⟩ := by
  obtain ⟨before, hpass⟩ := Cursor.mem_onward_iff.1 hstart
  obtain ⟨word, hword, hpass'⟩ := h.exists_spells
  refine ⟨before, word, hit.stop.ahead, ?_, hword, hpass', ?_⟩
  · exact (hpass.trans hpass').1
  · have hoffset := hpass.offset_eq
    have hoffset' := (hpass.trans hpass').offset_eq
    simp only [Cursor.offset, Text.size, Nat.zero_add] at hoffset hoffset'
    rw [Hit.span, Cursor.offset, Cursor.offset, hoffset, hoffset']

theorem fits_of_derives (hstart : hit.start ∈ Cursor.onward [] text)
    (h : Derives p hit.start hit.stop) : text.Fits hit.span := by
  obtain ⟨before, word, after, rfl, -, -, hspan⟩ := exists_append_of_derives hstart h
  rw [hspan]
  exact Text.fits_append before word after

theorem fits_of_find? {span : Span} (h : (p.find? text).map (·.span) = some span) :
    text.Fits span := by
  obtain ⟨hit, hfind, rfl⟩ := Option.map_eq_some_iff.1 h
  obtain ⟨hstart, hderives⟩ := derives_of_find? hfind
  exact fits_of_derives hstart hderives

/-- Each of the matches that are found starts in the text and is derived. -/
theorem derives_of_mem_findAll (h : hit ∈ p.findAll text) :
    hit.start ∈ Cursor.onward [] text ∧ Derives p hit.start hit.stop := by
  rw [findAll_eq_hitsFrom] at h
  obtain ⟨hpass, hderives⟩ := derives_of_mem_hitsFrom h
  exact ⟨Cursor.mem_onward_iff.2 hpass, hderives⟩

end Pattern

/-- A definition starts at a boundary. -/
theorem isBoundary_of_locate {text : Text} {request : Request} {start : Nat}
    (h : locate text request = some start) : text.IsBoundary start := by
  obtain ⟨kind, name⟩ := request
  have hspan : ∃ p span, (Pattern.find? p text).map (·.span) = some span ∧ span.start = start := by
    cases kind with
    | function => exact ⟨Shape.function name, Option.map_eq_some_iff.1 h⟩
    | struct => exact ⟨Shape.struct name, Option.map_eq_some_iff.1 h⟩
  obtain ⟨p, span, hfind, rfl⟩ := hspan
  exact (Text.fits_iff.1 (Pattern.fits_of_find? hfind)).2.1

theorem Braces.EndsAt.fits {text : Text} {start stop : Nat} (h : EndsAt text start stop) :
    text.Fits ⟨start, stop⟩ :=
  Text.fits_iff.2 ⟨Nat.le_of_lt h.lt_and_admits.1, h.lt_and_admits.2⟩

namespace Laid

variable {text : Text} {spans later : List Span}

theorem fits (h : Laid text spans) : ∀ span ∈ spans, text.Fits span :=
  fun span hspan => Text.fits_iff.2 ⟨h.ordered span hspan, h.admits span hspan⟩

theorem of_append {earlier : List Span} (h : Laid text (earlier ++ later)) : Laid text later := by
  induction earlier with
  | nil => exact h
  | cons span earlier ih => exact ih h.tail

/-- A span in front of others fits what is left without those. -/
theorem fits_without {span : Span} (h : Laid text (span :: later))
    (hfirst : ∀ next ∈ later, span.stop ≤ next.start) : (text.without later).Fits span := by
  obtain ⟨before, piece, after, rfl, rfl⟩ := h.head
  rw [Text.without_append_of_le hfirst]
  exact Text.fits_append before piece _

end Laid

end Carver
