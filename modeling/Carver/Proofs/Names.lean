import Carver.Identifier
import Carver.Text.Blank
import Carver.Text.Word

/-!
# Characters of names

A usable name is made of letters, digits and underscores (`isUsable_iff`). So it holds no blank, no
bracket, no dot and no slash, and ends where one of them stands; all of its characters can be part
of a word.
-/

namespace Carver.Identifier

/-- An ASCII letter. -/
def IsLetter (c : Char) : Prop :=
  'a' ≤ c ∧ c ≤ 'z' ∨ 'A' ≤ c ∧ c ≤ 'Z'

/-- An ASCII digit. -/
def IsDigit (c : Char) : Prop :=
  '0' ≤ c ∧ c ≤ '9'

/-- A letter or an underscore, then letters, digits and underscores; neither the lone underscore nor
a keyword. -/
structure IsName (name : String) : Prop where
  spelled : ∃ first rest, name.toList = first :: rest ∧ (IsLetter first ∨ first = '_') ∧
    ∀ c ∈ rest, IsLetter c ∨ IsDigit c ∨ c = '_'
  ne_underscore : name ≠ "_"
  not_mem_keywords : name ∉ keywords

theorem isUpper_iff {c : Char} : c.isUpper = true ↔ 'A' ≤ c ∧ c ≤ 'Z' :=
  decide_eq_true_iff

theorem isLower_iff {c : Char} : c.isLower = true ↔ 'a' ≤ c ∧ c ≤ 'z' :=
  (Bool.and_eq_true _ _).to_iff.trans (and_congr decide_eq_true_iff decide_eq_true_iff)

theorem isAlpha_iff {c : Char} : c.isAlpha = true ↔ IsLetter c := by
  have hcases : c.isAlpha = (c.isUpper || c.isLower) := rfl
  rw [hcases, Bool.or_eq_true, isUpper_iff, isLower_iff, or_comm, IsLetter]

theorem isDigit_iff {c : Char} : c.isDigit = true ↔ IsDigit c := by
  simp only [Char.isDigit, IsDigit, Char.le_def, Bool.and_eq_true, decide_eq_true_eq, ge_iff_le]

theorem isHead_iff {c : Char} : isHead c = true ↔ IsLetter c ∨ c = '_' := by
  rw [isHead, Bool.or_eq_true, isAlpha_iff, beq_iff_eq]

theorem isTail_iff {c : Char} : isTail c = true ↔ IsLetter c ∨ IsDigit c ∨ c = '_' := by
  rw [isTail, Char.isAlphanum, Bool.or_eq_true, Bool.or_eq_true, isAlpha_iff, isDigit_iff,
    beq_iff_eq, or_assoc]

theorem isWellFormed_iff {chars : List Char} : isWellFormed chars = true ↔
    ∃ first rest, chars = first :: rest ∧ (IsLetter first ∨ first = '_') ∧
      ∀ c ∈ rest, IsLetter c ∨ IsDigit c ∨ c = '_' := by
  cases chars with
  | nil => simp [isWellFormed]
  | cons first rest =>
    rw [isWellFormed, Bool.and_eq_true, isHead_iff, List.all_eq_true]
    simp only [isTail_iff]
    constructor
    · intro h
      exact ⟨first, rest, rfl, h⟩
    · rintro ⟨_, _, heq, h⟩
      cases heq
      exact h

/-- The tests accept names and nothing else. -/
theorem isUsable_iff {name : String} : isUsable name = true ↔ IsName name := by
  rw [isUsable, Bool.and_eq_true, Bool.and_eq_true, isWellFormed_iff]
  constructor
  · rintro ⟨⟨hlone, hkeyword⟩, hspelled⟩
    exact ⟨hspelled, by simpa using hlone, by simpa using hkeyword⟩
  · intro h
    exact ⟨⟨by simpa using h.ne_underscore, by simpa using h.not_mem_keywords⟩, h.spelled⟩

theorem toNat_of_isTail {c : Char} (h : isTail c = true) : 48 ≤ c.toNat ∧ c.toNat ≤ 122 := by
  have hkinds : (((c.isUpper || c.isLower) || c.isDigit) || c == '_') = true := h
  simp only [Bool.or_eq_true, beq_iff_eq] at hkinds
  rcases hkinds with ((hupper | hlower) | hdigit) | rfl
  · have hbounds : 65 ≤ c.toNat ∧ c.toNat ≤ 90 := of_decide_eq_true hupper
    omega
  · obtain ⟨hlow, hhigh⟩ := Bool.and_eq_true_iff.1 hlower
    have hbounds : 97 ≤ c.toNat ∧ c.toNat ≤ 122 :=
      ⟨of_decide_eq_true hlow, of_decide_eq_true hhigh⟩
    omega
  · obtain ⟨hlow, hhigh⟩ := Bool.and_eq_true_iff.1 hdigit
    have hbounds : 48 ≤ c.toNat ∧ c.toNat ≤ 57 :=
      ⟨of_decide_eq_true hlow, of_decide_eq_true hhigh⟩
    omega
  · decide

theorem isBlank_eq_false {c : Char} (h : isTail c = true) : Text.isBlank c = false := by
  have hrange := toNat_of_isTail h
  simp only [Text.isBlank, Bool.or_eq_false_iff, Bool.and_eq_false_iff, decide_eq_false_iff_not,
    beq_eq_false_iff_ne]
  omega

theorem isWord_of_isTail {c : Char} (h : isTail c = true) : Text.isWord c = true := by
  have hrange := toNat_of_isTail h
  rw [Text.isWord, if_pos (by omega)]
  exact h

/-- A usable name has a character, and all of them are letters, digits and underscores. -/
theorem isTail_of_isUsable {name : String} (h : isUsable name = true) :
    name.toList ≠ [] ∧ ∀ c ∈ name.toList, isTail c = true := by
  simp only [isUsable, Bool.and_eq_true] at h
  cases hchars : name.toList with
  | nil => simp [hchars, isWellFormed] at h
  | cons c rest =>
    have hform := h.2
    rw [hchars, isWellFormed, Bool.and_eq_true, List.all_eq_true] at hform
    refine ⟨by simp, ?_⟩
    rw [List.forall_mem_cons]
    refine ⟨?_, hform.2⟩
    have hhead := hform.1
    simp only [isHead, isTail, Char.isAlphanum, Bool.or_eq_true] at hhead ⊢
    exact hhead.imp_left .inl

/-- A character of another kind is in no usable name. -/
theorem not_mem_of_isUsable {name : String} (h : isUsable name = true) {c : Char}
    (hc : isTail c = false) : c ∉ name.toList := by
  intro hmem
  rw [(isTail_of_isUsable h).2 c hmem] at hc
  cases hc

end Carver.Identifier
