import Carver.Text.Pieces

/-!
# Pieces between separators

Cutting a text at its separators and putting separators between pieces undo each other, as long as
no piece holds a separator. A separator that is put into a text leaves the pieces on both sides as
they are (`Text.piecesBy_append_cons`).
-/

namespace Carver

namespace Text

theorem piecesBy_ne_nil (separator : Char) (text : Text) : piecesBy separator text ≠ [] := by
  cases text with
  | nil => simp [piecesBy]
  | cons c rest =>
    rw [piecesBy]
    split
    · simp
    · split <;> simp

/-- A separator ends one piece and begins the next. -/
theorem piecesBy_append_cons (separator : Char) (a b : Text) :
    piecesBy separator (a ++ separator :: b) = piecesBy separator a ++ piecesBy separator b := by
  induction a with
  | nil => simp [piecesBy]
  | cons c rest ih =>
    rw [List.cons_append, piecesBy, piecesBy]
    by_cases hc : c = separator
    · rw [if_pos hc, if_pos hc, ih, List.cons_append]
    · rw [if_neg hc, if_neg hc, ih]
      obtain ⟨piece, pieces, hpieces⟩ :=
        List.exists_cons_of_ne_nil (piecesBy_ne_nil separator rest)
      simp only [hpieces, List.cons_append]

theorem piecesBy_of_not_mem {separator : Char} {text : Text} (h : separator ∉ text) :
    piecesBy separator text = [text] := by
  induction text with
  | nil => rfl
  | cons c rest ih =>
    rw [List.mem_cons, not_or] at h
    rw [piecesBy, if_neg (Ne.symm h.1), ih h.2]

theorem not_mem_of_mem_piecesBy {separator : Char} {text piece : Text}
    (h : piece ∈ piecesBy separator text) : separator ∉ piece := by
  induction text generalizing piece with
  | nil =>
    rw [piecesBy, List.mem_singleton] at h
    simp [h]
  | cons c rest ih =>
    rw [piecesBy] at h
    split at h
    · rcases List.mem_cons.1 h with rfl | h
      · simp
      · exact ih h
    · rename_i hc
      split at h
      · rw [List.mem_singleton] at h
        simp [h, Ne.symm hc]
      · rename_i first pieces hpieces
        rw [hpieces] at ih
        rcases List.mem_cons.1 h with rfl | h
        · rw [List.mem_cons, not_or]
          exact ⟨Ne.symm hc, ih (by simp)⟩
        · exact ih (by simp [h])

/-- Pieces that are put together are found again. -/
theorem piecesBy_intercalate {separator : Char} {pieces : List Text} (hne : pieces ≠ [])
    (h : ∀ piece ∈ pieces, separator ∉ piece) :
    piecesBy separator ([separator].intercalate pieces) = pieces := by
  induction pieces with
  | nil => exact absurd rfl hne
  | cons first rest ih =>
    rw [List.forall_mem_cons] at h
    cases rest with
    | nil =>
      rw [List.intercalate_singleton]
      exact piecesBy_of_not_mem h.1
    | cons second rest =>
      rw [List.intercalate_cons_cons, List.append_assoc, List.singleton_append,
        piecesBy_append_cons, piecesBy_of_not_mem h.1, ih (by simp) h.2, List.singleton_append]

end Text

end Carver
