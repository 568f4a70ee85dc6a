import Carver.Split

/-!
# Splits with patterns that are refused

Which patterns a split needs depends on its plan alone, not on the text nor on what is found in it.
So a split under refusals is the split if none of them is refused, and ends with what is said
against the first one that is (`splitUnder_eq_ok`, `exists_interruption`).
-/

namespace Carver

/-- Steps that are ended by what is said against their elements, and are the plain ones
otherwise. -/
structure EndedBy {α β ε : Type} (step : Text → α → Except ε (β × Text))
    (plain : Text → α → β × Text) (against : α → Option String) (detail : ε → String) : Prop where
  taken : ∀ text a, against a = none → step text a = .ok (plain text a)
  ended : ∀ text a said, against a = some said →
    ∃ fault, step text a = .error fault ∧ detail fault = said

/-- Steps in turn are ended by what is said first. -/
theorem EndedBy.threadUntil {α β ε : Type} {step : Text → α → Except ε (β × Text)}
    {plain : Text → α → β × Text} {against : α → Option String} {detail : ε → String}
    (h : EndedBy step plain against detail) :
    EndedBy (threadUntil step) (thread plain) (·.findSome? against) (detail ·.2) := by
  constructor
  case taken =>
    intro text steps hnone
    induction steps generalizing text with
    | nil => rfl
    | cons a rest ih =>
      rw [List.findSome?_eq_none_iff, List.forall_mem_cons, ← List.findSome?_eq_none_iff] at hnone
      simp only [Carver.threadUntil, thread, h.taken text a hnone.1, ih _ hnone.2]
  case ended =>
    intro text steps said hsome
    induction steps generalizing text with
    | nil => cases hsome
    | cons a rest ih =>
      rw [List.findSome?_cons] at hsome
      cases hagainst : against a with
      | some first =>
        rw [hagainst] at hsome
        obtain ⟨fault, hstep, hdetail⟩ := h.ended text a first hagainst
        simp only [Carver.threadUntil, hstep]
        exact ⟨_, rfl, hdetail.trans (Option.some.inj hsome)⟩
      | none =>
        rw [hagainst] at hsome
        obtain ⟨stop, hrest, hdetail⟩ := ih (plain text a).2 hsome
        simp only [Carver.threadUntil, h.taken text a hagainst, hrest]
        exact ⟨_, rfl, hdetail⟩

/-- What is said against the first pattern of an entry that is refused. -/
def ModulePlan.against (refusals : Refusals) (entry : ModulePlan) : Option String :=
  entry.requests.findSome? (·.against refusals)

/-- What is said against the first pattern of a plan that is refused. -/
def Plan.against (refusals : Refusals) (plan : Plan) : Option String :=
  plan.findSome? (·.against refusals)

theorem Request.endedBy_takeUnder (refusals : Refusals) :
    EndedBy (takeUnder refusals) take (·.against refusals) id := by
  constructor
  case taken =>
    intro text request hnone
    simp only [takeUnder, hnone]
  case ended =>
    intro text request said hsome
    simp only [takeUnder, hsome]
    exact ⟨said, rfl, rfl⟩

theorem ModulePlan.endedBy_takeUnder (refusals : Refusals) :
    EndedBy (takeUnder refusals) take (·.against refusals) (·.2) := by
  have hrequests := (Request.endedBy_takeUnder refusals).threadUntil
  constructor
  case taken =>
    intro text entry hnone
    simp only [takeUnder, take, hrequests.taken text entry.requests hnone]
  case ended =>
    intro text entry said hsome
    obtain ⟨stop, hstop, hdetail⟩ := hrequests.ended text entry.requests said hsome
    simp only [takeUnder, hstop]
    exact ⟨stop, rfl, hdetail⟩

/-- With all its patterns taken, a split is not ended. -/
theorem splitUnder_eq_ok {refusals : Refusals} {plan : Plan} (h : plan.against refusals = none)
    (text : Text) : splitUnder refusals text plan = .ok (split text plan) := by
  simp only [splitUnder, split,
    (ModulePlan.endedBy_takeUnder refusals).threadUntil.taken text plan h]

/-- A split ends with what is said against the first of its patterns that is refused, whatever the
text. -/
theorem exists_interruption {refusals : Refusals} {plan : Plan} {said : String}
    (h : plan.against refusals = some said) (text : Text) :
    ∃ stop, splitUnder refusals text plan = .error stop ∧ stop.detail = said := by
  obtain ⟨stop, hstop, hdetail⟩ :=
    (ModulePlan.endedBy_takeUnder refusals).threadUntil.ended text plan said h
  simp only [splitUnder, hstop]
  exact ⟨_, rfl, hdetail⟩

/-- Nothing is said against a plan if no pattern is refused. -/
@[simp] theorem against_none (plan : Plan) : plan.against (fun _ => none) = none := by
  simp [Plan.against, ModulePlan.against, Request.against]

end Carver
