import Carver.Text.Blank
import Carver.Text.Bytes
import Mathlib.Data.List.TakeWhile

/-!
# Seams of texts

What two texts hold together that neither holds alone stands at the seam between them, so it is
ruled out by the end of the first one. Three things are followed over seams in this way: the keyword
of a function (`Keyless.skip`), the character that ends an item (`endsItem_append`) and the
parenthesis of a `pub` (`closesPub_append`).
-/

namespace Carver.Text

/-! ## Ends of texts -/

theorem forall_getLast?_append {p : Char → Prop} {x y : Text} (hx : ∀ z ∈ x.getLast?, p z)
    (hy : ∀ z ∈ y.getLast?, p z) : ∀ z ∈ (x ++ y).getLast?, p z := by
  intro z hz
  rw [List.getLast?_append, Option.mem_def, Option.or_eq_some_iff] at hz
  rcases hz with hz | ⟨_, hz⟩
  · exact hy z hz
  · exact hx z hz

theorem forall_getLast?_flatMap {α : Type} {p : Char → Prop} {f : α → Text} {parts : List α}
    (h : ∀ part ∈ parts, ∀ z ∈ (f part).getLast?, p z) :
    ∀ z ∈ (parts.flatMap f).getLast?, p z := by
  induction parts with
  | nil => simp
  | cons part parts ih =>
    rw [List.forall_mem_cons] at h
    rw [List.flatMap_cons]
    exact forall_getLast?_append h.1 (ih h.2)

/-- Two neighbouring characters of two joined texts stand in one of them or at the seam. -/
theorem pair_isInfix_append {p q : Char} {x y : Text} (h : [p, q] <:+: x ++ y) :
    [p, q] <:+: x ∨ [p, q] <:+: y ∨ x.getLast? = some p ∧ y.head? = some q := by
  rcases List.infix_append_iff.1 h with h | h | ⟨l, r, hlr, ⟨front, hl⟩, ⟨back, hr⟩⟩
  · exact .inl h
  · exact .inr (.inl h)
  · rcases l with _ | ⟨c, _ | ⟨d, l⟩⟩
    · rw [List.nil_append] at hlr
      exact .inr (.inl ⟨[], back, by rw [hlr]; exact hr⟩)
    · simp only [List.cons_append, List.nil_append, List.cons.injEq] at hlr
      obtain ⟨rfl, rfl⟩ := hlr
      refine .inr (.inr ⟨?_, ?_⟩)
      · rw [← hl, List.getLast?_append]
        rfl
      · rw [← hr]
        rfl
    · simp only [List.cons_append, List.cons.injEq] at hlr
      obtain ⟨rfl, rfl, hnil⟩ := hlr
      rw [(List.append_eq_nil_iff.1 hnil.symm).1] at hl
      exact .inl ⟨front, [], by rw [← hl, List.append_nil]⟩

/-- Lines that are not empty, and then no line feed: no line is blank. -/
theorem not_isInfix_lines {lines : List Text} {last : Text}
    (hlines : ∀ line ∈ lines, ∃ body, line = body ++ ['\n'] ∧ body ≠ [] ∧ '\n' ∉ body)
    (hlast : '\n' ∉ last) : ¬ ['\n', '\n'] <:+: '\n' :: (lines.flatten ++ last) := by
  -- one line feed and what follows it up to the next one
  have hline : ∀ body : Text, '\n' ∉ body → ¬ ['\n', '\n'] <:+: '\n' :: body := by
    rintro body hbody ⟨a, b, h⟩
    have hcount := congrArg (List.count '\n') h
    simp only [List.count_append, List.count_cons_self, List.count_nil,
      List.count_eq_zero_of_not_mem hbody] at hcount
    omega
  induction lines with
  | nil => exact hline last hlast
  | cons line lines ih =>
    rw [List.forall_mem_cons] at hlines
    obtain ⟨⟨body, rfl, hne, hbody⟩, hlines⟩ := hlines
    intro h
    have heq : '\n' :: ((body ++ ['\n']) :: lines).flatten ++ last
        = ('\n' :: body) ++ '\n' :: (lines.flatten ++ last) := by simp
    rw [← List.cons_append, heq] at h
    rcases pair_isInfix_append h with h | h | ⟨hend, _⟩
    · exact hline body hbody h
    · exact ih hlines h
    -- a line feed at the end of the body
    · obtain ⟨z, rest, rfl⟩ := List.exists_cons_of_ne_nil hne
      rw [List.getLast?_cons_cons] at hend
      exact hbody (List.mem_of_getLast? hend)

/-! ## Keywords -/

/-- There is no `fn` in the text. -/
def LacksFn (text : Text) : Prop :=
  ¬ ['f', 'n'] <:+: text

instance (text : Text) : Decidable text.LacksFn :=
  inferInstanceAs (Decidable (¬ _))

theorem lacksFn_append {x y : Text} (hx : x.LacksFn) (hy : y.LacksFn)
    (hseam : (∀ z ∈ x.getLast?, z ≠ 'f') ∨ y.head? ≠ some 'n') : (x ++ y).LacksFn := by
  intro h
  rcases pair_isInfix_append h with h | h | ⟨hlast, hhead⟩
  · exact hx h
  · exact hy h
  · rcases hseam with hseam | hseam
    · exact hseam 'f' hlast rfl
    · exact hseam hhead

theorem lacksFn_flatMap {α : Type} {f : α → Text} {parts : List α}
    (hparts : ∀ part ∈ parts, (f part).LacksFn)
    (hseam : ∀ part ∈ parts, ∀ z ∈ (f part).getLast?, z ≠ 'f') : LacksFn (parts.flatMap f) := by
  induction parts with
  | nil => simp [LacksFn]
  | cons part parts ih =>
    rw [List.forall_mem_cons] at hparts hseam
    rw [List.flatMap_cons]
    exact lacksFn_append hparts.1 (ih hparts.2 hseam.2) (.inl hseam.1)

/-- No `fn` of the text stands in front of a blank. -/
def Keyless (text : Text) : Prop :=
  ∀ a b c, text = a ++ 'f' :: 'n' :: c :: b → isBlank c = false

theorem LacksFn.keyless {text : Text} (h : text.LacksFn) : text.Keyless := by
  rintro a b c rfl
  exact absurd ⟨a, c :: b, by simp⟩ h

theorem keyless_of_visible {text : Text} (h : ∀ c ∈ text, isBlank c = false) : text.Keyless := by
  rintro a b c rfl
  exact h c (by simp)

/-- A keyword lies behind a beginning that has none and does not end in part of one. -/
theorem Keyless.skip {x y a b : Text} {c : Char} (hx : x.Keyless)
    (hlast : ∀ z ∈ x.getLast?, z ≠ 'f' ∧ z ≠ 'n') (hc : isBlank c = true)
    (h : x ++ y = a ++ 'f' :: 'n' :: c :: b) :
    ∃ a', a = x ++ a' ∧ y = a' ++ 'f' :: 'n' :: c :: b := by
  rcases List.append_eq_append_iff.1 h with ⟨a', ha, hy⟩ | ⟨b', rfl, hb⟩
  · exact ⟨a', ha, hy⟩
  · rcases b' with _ | ⟨p, _ | ⟨q, _ | ⟨r, b'⟩⟩⟩
    · exact ⟨[], by simp, hb.symm⟩
    · simp only [List.cons_append, List.cons.injEq] at hb
      obtain ⟨rfl, -⟩ := hb
      exact absurd rfl (hlast 'f' (by simp)).1
    · simp only [List.cons_append, List.cons.injEq] at hb
      obtain ⟨rfl, rfl, -⟩ := hb
      exact absurd rfl (hlast 'n' (by simp)).2
    · simp only [List.cons_append, List.cons.injEq] at hb
      obtain ⟨rfl, rfl, rfl, -⟩ := hb
      rw [hx a b' c rfl] at hc
      cases hc

/-! ## Blanks at the end -/

/-- There is one way to end in a visible character and blanks. -/
theorem append_cons_inj_of_blank {x x' g g' : Text} {c c' : Char} (h : x ++ c :: g = x' ++ c' :: g')
    (hg : ∀ z ∈ g, isBlank z = true) (hg' : ∀ z ∈ g', isBlank z = true)
    (hc : isBlank c = false) (hc' : isBlank c' = false) : x = x' ∧ c = c' := by
  rcases List.append_eq_append_iff.1 h with ⟨mid, rfl, hmid⟩ | ⟨mid, rfl, hmid⟩
  · rcases mid with _ | ⟨z, mid⟩
    · exact ⟨(List.append_nil _).symm, (List.cons.inj hmid).1⟩
    · rw [(List.cons.inj hmid).2] at hg
      rw [hg c' (by simp)] at hc'
      cases hc'
  · rcases mid with _ | ⟨z, mid⟩
    · exact ⟨List.append_nil _, (List.cons.inj hmid).1.symm⟩
    · rw [(List.cons.inj hmid).2] at hg'
      rw [hg' c (by simp)] at hc
      cases hc

/-- Whether the last character that is no blank, if there is one, ends an item. -/
def endsItem (text : Text) : Bool :=
  (text.reverse.find? (!isBlank ·)).all fun c => c == ';' || c == '}'

theorem endsItem_append {x y : Text} (hx : endsItem x = true) (hy : endsItem y = true) :
    endsItem (x ++ y) = true := by
  rw [endsItem, List.reverse_append, List.find?_append]
  cases hlast : y.reverse.find? (!isBlank ·) with
  | none => exact hx
  | some c =>
    rw [endsItem, hlast] at hy
    exact hy

theorem endsItem_flatMap {α : Type} {f : α → Text} {parts : List α}
    (h : ∀ part ∈ parts, endsItem (f part) = true) : endsItem (parts.flatMap f) = true := by
  induction parts with
  | nil => rfl
  | cons part parts ih =>
    rw [List.forall_mem_cons] at h
    rw [List.flatMap_cons]
    exact endsItem_append h.1 (ih h.2)

theorem endsItem_of_append {x y : Text} (h : endsItem (x ++ y) = true) : endsItem y = true := by
  rw [endsItem, List.reverse_append, List.find?_append] at h
  cases hlast : y.reverse.find? (!isBlank ·) with
  | none => rw [endsItem, hlast, Option.all_none]
  | some c =>
    rw [hlast] at h
    rw [endsItem, hlast]
    exact h

/-- What stands in front of the blanks at the end of a text ends an item. -/
theorem eq_of_endsItem {x blanks : Text} {c : Char} (h : endsItem (x ++ c :: blanks) = true)
    (hblanks : ∀ z ∈ blanks, isBlank z = true) (hc : isBlank c = false) : c = ';' ∨ c = '}' := by
  have hnone : blanks.reverse.find? (!isBlank ·) = none := by
    rw [List.find?_eq_none]
    intro z hz
    simp [hblanks z (List.mem_reverse.1 hz)]
  rw [endsItem, List.reverse_append, List.reverse_cons, List.append_assoc, List.find?_append,
    hnone, Option.none_or, List.singleton_append, List.find?_cons_of_pos (by simp [hc])] at h
  simpa using h

/-! ## Parentheses -/

/-- What stands behind the first closing parenthesis. -/
def behindParen? (text : Text) : Option Text :=
  (text.dropWhile (· != ')')).tail?

theorem behindParen?_append {front : Text} (hfront : ')' ∉ front) (later : Text) :
    behindParen? (front ++ ')' :: later) = some later := by
  have hdrop : (front ++ ')' :: later).dropWhile (· != ')') = ')' :: later := by
    rw [List.dropWhile_append_of_pos, List.dropWhile_cons_of_neg (by simp)]
    intro z hz
    rw [bne_iff_ne]
    rintro rfl
    exact hfront hz
  rw [behindParen?, hdrop, List.tail?_cons]

/-- Every `pub` that blanks at most keep from a parenthesis is followed by a closing one. -/
def ClosesPub (text : Text) : Prop :=
  ∀ a b, text = a ++ ['p', 'u', 'b'] ++ b → (b.dropWhile isBlank).head? = some '(' → ')' ∈ b

instance (text : Text) : Decidable text.ClosesPub :=
  decidable_of_iff (∀ n ≤ text.length, (text.drop n).take 3 = ['p', 'u', 'b'] →
      ((text.drop (n + 3)).dropWhile isBlank).head? = some '(' → ')' ∈ text.drop (n + 3)) <| by
    constructor
    · rintro h a b rfl hparen
      have hhere := h a.length (by simp)
      rw [List.append_assoc, List.drop_left, List.drop_append, List.drop_of_length_le (by simp),
        Nat.add_sub_cancel_left] at hhere
      exact hhere rfl hparen
    · intro h n _ htake hparen
      refine h (text.take n) _ ?_ hparen
      rw [← htake, List.append_assoc, ← List.drop_drop, List.take_append_drop,
        List.take_append_drop]

theorem closesPub_append {x y : Text} (hx : x.ClosesPub) (hend : endsItem x = true)
    (hy : y.ClosesPub) : (x ++ y).ClosesPub := by
  intro a b h hparen
  rw [List.append_assoc] at h
  rcases List.append_eq_append_iff.1 h with ⟨a', rfl, rfl⟩ | ⟨b', rfl, hb⟩
  · exact hy a' b (by simp) hparen
  -- the seam lies before, inside or behind the word, and `x` cannot end in the word
  · rcases b' with _ | ⟨p, _ | ⟨q, _ | ⟨r, b'⟩⟩⟩
    · exact hy [] b (by simpa using hb.symm) hparen
    · simp only [List.cons_append, List.cons.injEq] at hb
      obtain ⟨rfl, -⟩ := hb
      exact absurd (eq_of_endsItem hend (by simp) rfl) (by decide)
    · simp only [List.cons_append, List.cons.injEq] at hb
      obtain ⟨rfl, rfl, -⟩ := hb
      have hend' : endsItem ((a ++ ['p']) ++ ['u']) = true := by simpa using hend
      exact absurd (eq_of_endsItem hend' (by simp) rfl) (by decide)
    · simp only [List.cons_append, List.nil_append, List.cons.injEq] at hb
      obtain ⟨rfl, rfl, rfl, rfl⟩ := hb
      rw [List.dropWhile_append] at hparen
      split at hparen
      · rename_i hempty
        have hblanks : ∀ z ∈ b', isBlank z = true :=
          List.dropWhile_eq_nil_iff.1 (List.isEmpty_iff.1 hempty)
        have hend' : endsItem ((a ++ ['p', 'u']) ++ 'b' :: b') = true := by simpa using hend
        exact absurd (eq_of_endsItem hend' hblanks rfl) (by decide)
      · rename_i hvisible
        rw [List.isEmpty_iff] at hvisible
        obtain ⟨z, rest, hrest⟩ := List.exists_cons_of_ne_nil hvisible
        rw [hrest] at hparen
        exact List.mem_append_left _ (hx a b' (by simp) (by rw [hrest]; exact hparen))

theorem closesPub_flatMap {α : Type} {f : α → Text} {parts : List α}
    (h : ∀ part ∈ parts, (f part).ClosesPub ∧ endsItem (f part) = true) :
    ClosesPub (parts.flatMap f) := by
  induction parts with
  | nil =>
    intro a b h
    simp at h
  | cons part parts ih =>
    rw [List.forall_mem_cons] at h
    rw [List.flatMap_cons]
    exact closesPub_append h.1.1 h.1.2 (ih h.2)

end Carver.Text
