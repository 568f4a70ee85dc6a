import Carver.Pattern

/-!
# What a pattern derives

`Pattern.Derives p c d` says that the characters between the places `c` and `d` have the form that
`p` describes. It knows no order of preference. The listed ends of a match are the places that can
be derived (`mem_ends_iff_derives`).
-/

namespace Carver.Pattern

/-- The run from the first place to the second one has the form of the pattern. -/
inductive Derives : Pattern → Cursor → Cursor → Prop
  | nothing (c : Cursor) : Derives .nothing c c
  | one {accepts : Char → Bool} {behind : Text} {x : Char} {rest : Text} :
      accepts x = true → Derives (.one accepts) ⟨behind, x :: rest⟩ ⟨x :: behind, rest⟩
  | runStop {accepts : Char → Bool} (c : Cursor) : Derives (.run accepts) c c
  | runStep {accepts : Char → Bool} {behind : Text} {x : Char} {rest : Text} {d : Cursor} :
      accepts x = true → Derives (.run accepts) ⟨x :: behind, rest⟩ d →
        Derives (.run accepts) ⟨behind, x :: rest⟩ d
  | shortRun {accepts : Char → Bool} {c d : Cursor} :
      Derives (.run accepts) c d → Derives (.shortRun accepts) c d
  | wordEdge {c : Cursor} : c.atWordEdge = true → Derives .wordEdge c c
  | lineEnd {c : Cursor} : c.atLineEnd = true → Derives .lineEnd c c
  | both {p q : Pattern} {c d e : Cursor} :
      Derives p c d → Derives q d e → Derives (.both p q) c e
  | present {p : Pattern} {c d : Cursor} : Derives p c d → Derives (.maybe p) c d
  | absent {p : Pattern} (c : Cursor) : Derives (.maybe p) c c
  | manyStop {p : Pattern} (c : Cursor) : Derives (.many p) c c
  | manyStep {p : Pattern} {c d e : Cursor} :
      Derives p c d → Derives (.many p) d e → Derives (.many p) c e

/-- A run is empty or leads ahead. -/
theorem Derives.eq_or_ahead {p : Pattern} {c d : Cursor} (h : Derives p c d) :
    d = c ∨ d.ahead.length < c.ahead.length := by
  induction h with
  | nothing => exact .inl rfl
  | one _ => exact .inr (by simp)
  | runStop => exact .inl rfl
  | runStep _ _ ih =>
    refine .inr ?_
    rcases ih with rfl | ih
    · simp
    · simp only [List.length_cons] at ih ⊢
      omega
  | shortRun _ ih => exact ih
  | wordEdge _ => exact .inl rfl
  | lineEnd _ => exact .inl rfl
  | both _ _ ih₁ ih₂ =>
    rcases ih₁ with rfl | ih₁
    · exact ih₂
    · rcases ih₂ with rfl | ih₂
      · exact .inr ih₁
      · exact .inr (Nat.lt_trans ih₂ ih₁)
  | present _ ih => exact ih
  | absent => exact .inl rfl
  | manyStop => exact .inl rfl
  | manyStep _ _ ih₁ ih₂ =>
    rcases ih₁ with rfl | ih₁
    · exact ih₂
    · rcases ih₂ with rfl | ih₂
      · exact .inr ih₁
      · exact .inr (Nat.lt_trans ih₂ ih₁)

theorem derives_run_of_mem_runs {accepts : Char → Bool} {behind text : Text} {d : Cursor}
    (h : d ∈ Cursor.runs accepts behind text) : Derives (.run accepts) ⟨behind, text⟩ d := by
  induction text generalizing behind with
  | nil =>
    rw [List.mem_singleton.1 h]
    exact .runStop _
  | cons x rest ih =>
    rw [Cursor.runs, List.mem_cons] at h
    rcases h with rfl | h
    · exact .runStop _
    · split at h
      · exact .runStep ‹_› (ih h)
      · simp at h

theorem derives_many_of_mem_repeated {p : Pattern}
    (hp : ∀ c d : Cursor, d ∈ p.ends c → Derives p c d) (c : Cursor) {d : Cursor}
    (h : d ∈ repeated p.ends c) : Derives (.many p) c d := by
  rw [repeated, List.mem_append, List.mem_flatMap, List.mem_singleton] at h
  rcases h with ⟨e, he, hd⟩ | rfl
  · split at hd
    · exact .manyStep (hp c e he) (derives_many_of_mem_repeated hp e hd)
    · simp at hd
  · exact .manyStop d
termination_by c.ahead.length

theorem derives_of_mem_ends {p : Pattern} {c d : Cursor} (h : d ∈ p.ends c) : Derives p c d := by
  induction p generalizing c d with
  | nothing =>
    rw [List.mem_singleton.1 h]
    exact .nothing _
  | one accepts =>
    obtain ⟨behind, _ | ⟨x, rest⟩⟩ := c
    · simp [ends] at h
    · simp only [ends] at h
      split at h
      · rw [List.mem_singleton.1 h]
        exact .one ‹_›
      · simp at h
  | run accepts =>
    rw [ends, List.mem_reverse] at h
    exact derives_run_of_mem_runs h
  | shortRun accepts => exact .shortRun (derives_run_of_mem_runs h)
  | wordEdge =>
    rw [ends] at h
    split at h
    · rw [List.mem_singleton.1 h]
      exact .wordEdge ‹_›
    · simp at h
  | lineEnd =>
    rw [ends] at h
    split at h
    · rw [List.mem_singleton.1 h]
      exact .lineEnd ‹_›
    · simp at h
  | both p q ihp ihq =>
    rw [ends, List.mem_flatMap] at h
    obtain ⟨e, he, hd⟩ := h
    exact .both (ihp he) (ihq hd)
  | maybe p ih =>
    rw [ends, List.mem_append, List.mem_singleton] at h
    rcases h with h | rfl
    · exact .present (ih h)
    · exact .absent d
  | many p ih => exact derives_many_of_mem_repeated (fun _ _ => ih) c h

theorem mem_ends_of_derives {p : Pattern} {c d : Cursor} (h : Derives p c d) : d ∈ p.ends c := by
  induction h with
  | nothing c => exact List.mem_singleton.2 rfl
  | one hx => simp [ends, hx]
  | runStop c =>
    obtain ⟨behind, _ | ⟨x, rest⟩⟩ := c <;> simp [ends, Cursor.runs]
  | runStep hx _ ih =>
    rw [ends, List.mem_reverse] at ih
    rw [ends, List.mem_reverse, Cursor.runs, if_pos hx]
    exact List.mem_cons_of_mem _ ih
  | shortRun _ ih => exact List.mem_reverse.1 ih
  | wordEdge hc => simp [ends, hc]
  | lineEnd hc => simp [ends, hc]
  | both _ _ ih₁ ih₂ => exact List.mem_flatMap.2 ⟨_, ih₁, ih₂⟩
  | present _ ih => exact List.mem_append_left _ ih
  | absent c => exact List.mem_append_right _ (List.mem_singleton.2 rfl)
  | manyStop c =>
    rw [ends, repeated]
    exact List.mem_append_right _ (List.mem_singleton.2 rfl)
  | manyStep hp _ ih₁ ih₂ =>
    rcases hp.eq_or_ahead with rfl | ahead
    · exact ih₂
    · rw [ends, repeated]
      refine List.mem_append_left _ (List.mem_flatMap.2 ⟨_, ih₁, ?_⟩)
      rw [if_pos ahead]
      exact ih₂

/-- A place is listed as an end exactly if the run up to it has the form of the pattern. -/
theorem mem_ends_iff_derives {p : Pattern} {c d : Cursor} : d ∈ p.ends c ↔ Derives p c d :=
  ⟨derives_of_mem_ends, mem_ends_of_derives⟩

end Carver.Pattern
