import Carver.Text.Bytes

/-!
# Cutting texts at byte offsets

Both parts of a cut make up the text again, wherever the offset lies. An offset is a boundary
exactly if some beginning of the text has that size, and there the cut is where it was asked for.
When a piece is taken out, the boundaries behind it move up by its size and the others stay.
-/

namespace Carver.Text

theorem size_append (a b : Text) : size (a ++ b) = size a + size b := by
  induction a with
  | nil => simp [size]
  | cons c rest ih =>
    simp only [List.cons_append, size, ih]
    omega

theorem size_reverse (a : Text) : size a.reverse = size a := by
  induction a with
  | nil => rfl
  | cons c rest ih =>
    rw [List.reverse_cons, size_append, ih]
    simp only [size]
    omega

theorem size_pos_of_ne_nil {text : Text} (h : text ≠ []) : 0 < size text := by
  obtain ⟨c, rest, rfl⟩ := List.exists_cons_of_ne_nil h
  exact Nat.lt_of_lt_of_le c.utf8Size_pos (Nat.le_add_right _ _)

theorem takeBytes_append_dropBytes (n : Nat) (text : Text) :
    takeBytes n text ++ dropBytes n text = text := by
  induction text generalizing n with
  | nil => rfl
  | cons c rest ih =>
    rw [takeBytes, dropBytes]
    split
    · rw [List.cons_append, ih]
    · rfl

theorem takeBytes_zero (text : Text) : takeBytes 0 text = [] := by
  cases text with
  | nil => rfl
  | cons c rest =>
    have hpos := c.utf8Size_pos
    rw [takeBytes, if_neg (by omega)]

theorem takeBytes_size_append (a b : Text) : takeBytes (size a) (a ++ b) = a := by
  induction a with
  | nil => exact takeBytes_zero b
  | cons c rest ih =>
    rw [List.cons_append, size, takeBytes, if_pos (by omega), Nat.add_sub_cancel_left, ih]

theorem dropBytes_size_append (a b : Text) : dropBytes (size a) (a ++ b) = b := by
  have h := takeBytes_append_dropBytes (size a) (a ++ b)
  rw [takeBytes_size_append] at h
  exact List.append_cancel_left h

/-- Two splits of a text at the same offset are the same. -/
theorem append_inj_of_size {a b x y : Text} (h : a ++ b = x ++ y) (hsize : size a = size x) :
    a = x ∧ b = y := by
  have hfront : a = x := by
    rw [← takeBytes_size_append a b, h, hsize, takeBytes_size_append]
  rw [hfront] at h
  exact ⟨hfront, List.append_cancel_left h⟩

/-- A beginning of the text ends at a boundary. -/
theorem isBoundary_size_append (a b : Text) : IsBoundary (a ++ b) (size a) := by
  rw [IsBoundary, takeBytes_size_append]

theorem dropBytes?_size_append (a b : Text) : dropBytes? (a ++ b) (size a) = some b := by
  rw [dropBytes?, if_pos (isBoundary_size_append a b), dropBytes_size_append]

theorem slice_append (x y z : Text) : slice (x ++ y ++ z) ⟨size x, size (x ++ y)⟩ = y := by
  rw [slice, takeBytes_size_append, dropBytes_size_append]

theorem erase_append (x y z : Text) : erase (x ++ y ++ z) ⟨size x, size (x ++ y)⟩ = x ++ z := by
  rw [erase, dropBytes_size_append, List.append_assoc, takeBytes_size_append]

/-- Beginnings are nested. -/
theorem takeBytes_takeBytes {m n : Nat} (h : m ≤ n) (text : Text) :
    takeBytes m (takeBytes n text) = takeBytes m text := by
  induction text generalizing m n with
  | nil => rfl
  | cons c rest ih =>
    by_cases hn : c.utf8Size ≤ n
    · rw [takeBytes, if_pos hn, takeBytes, takeBytes]
      split
      · rw [ih (by omega)]
      · rfl
    · rw [takeBytes, if_neg hn, takeBytes, takeBytes, if_neg (by omega)]

/-- What lies before a span, in it and behind it makes up the text. -/
theorem takeBytes_append_slice_append_dropBytes {start stop : Nat} (h : start ≤ stop)
    (text : Text) :
    takeBytes start text ++ slice text ⟨start, stop⟩ ++ dropBytes stop text = text := by
  have hhead : takeBytes start text ++ slice text ⟨start, stop⟩ = takeBytes stop text := by
    rw [slice, ← takeBytes_takeBytes h text, takeBytes_append_dropBytes]
  rw [hhead, takeBytes_append_dropBytes]

/-! ## Boundaries -/

theorem admits_append (before piece after : Text) :
    Admits (before ++ piece ++ after) ⟨size before, size (before ++ piece)⟩ := by
  refine ⟨?_, isBoundary_size_append _ _⟩
  rw [List.append_assoc]
  exact isBoundary_size_append _ _

theorem erase?_append (before piece after : Text) :
    erase? (before ++ piece ++ after) ⟨size before, size (before ++ piece)⟩
      = some (before ++ after) := by
  rw [erase?, if_pos (admits_append before piece after), erase_append]

/-- A span with both ends at boundaries splits the text in three. -/
theorem exists_append_of_admits {text : Text} {span : Span} (h : Admits text span)
    (hle : span.start ≤ span.stop) :
    ∃ before piece after, text = before ++ piece ++ after ∧
      span = ⟨size before, size (before ++ piece)⟩ := by
  obtain ⟨start, stop⟩ := span
  have hwhole := takeBytes_append_slice_append_dropBytes hle text
  have hstop : takeBytes start text ++ slice text ⟨start, stop⟩ = takeBytes stop text :=
    List.append_cancel_right (hwhole.trans (takeBytes_append_dropBytes stop text).symm)
  refine ⟨_, _, _, hwhole.symm, ?_⟩
  rw [hstop, h.1, h.2]

/-- Of two beginnings of a text the shorter one begins the longer one. -/
theorem exists_append_of_size_le {a b x y : Text} (h : a ++ b = x ++ y) (hle : size a ≤ size x) :
    ∃ mid, x = a ++ mid ∧ b = mid ++ y := by
  rcases List.append_eq_append_iff.1 h with ⟨mid, hx, hb⟩ | ⟨mid, ha, hy⟩
  · exact ⟨mid, hx, hb⟩
  · cases mid with
    | nil => exact ⟨[], by simpa using ha.symm, by simpa using hy.symm⟩
    | cons c mid =>
      have hpos := size_pos_of_ne_nil (List.cons_ne_nil c mid)
      rw [ha, size_append] at hle
      omega

theorem exists_append_of_isBoundary {text : Text} {n : Nat} (h : IsBoundary text n) :
    ∃ a b, text = a ++ b ∧ n = size a :=
  ⟨_, _, (takeBytes_append_dropBytes n text).symm, h.symm⟩

/-- Boundaries up to a piece are not moved when it is taken out. -/
theorem IsBoundary.before {before piece after : Text} {n : Nat}
    (h : IsBoundary (before ++ piece ++ after) n) (hle : n ≤ size before) :
    IsBoundary (before ++ after) n := by
  obtain ⟨a, b, htext, rfl⟩ := exists_append_of_isBoundary h
  rw [List.append_assoc] at htext
  obtain ⟨mid, rfl, -⟩ := exists_append_of_size_le htext.symm hle
  rw [List.append_assoc]
  exact isBoundary_size_append _ _

/-- Boundaries behind a piece move up when it is taken out. -/
theorem IsBoundary.behind {before piece after : Text} {n : Nat}
    (h : IsBoundary (before ++ piece ++ after) n) (hle : size (before ++ piece) ≤ n) :
    IsBoundary (before ++ after) (n - size piece) := by
  obtain ⟨a, b, htext, rfl⟩ := exists_append_of_isBoundary h
  obtain ⟨mid, rfl, rfl⟩ := exists_append_of_size_le htext hle
  have hsize : size (before ++ piece ++ mid) - size piece = size (before ++ mid) := by
    simp only [size_append]
    omega
  rw [hsize, ← List.append_assoc]
  exact isBoundary_size_append _ _

end Carver.Text
