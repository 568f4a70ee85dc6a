import Carver.Report

/-!
# Misses have no effect

A request that misses leaves the text as it is, so a plan without the names that missed takes the
same texts in the same order (`split_withoutMisses`). Names are judged one by one where they stand
in the plan: the same name may be taken at one place and missed at another.
-/

namespace Carver

/-! ## Steps without effect -/

/-- Steps whose results are not kept and that leave the text as it is can be left out: the others
give what they gave before. -/
theorem thread_filter {α β : Type} {step : Text → α → β × Text} {keeps : β → Bool}
    (hidle : ∀ text a, keeps (step text a).1 = false → (step text a).2 = text) (text : Text)
    (steps : List α) :
    thread step text (((steps.zip (thread step text steps).1).filter (keeps ·.2)).map (·.1))
      = ((thread step text steps).1.filter keeps, (thread step text steps).2) := by
  induction steps generalizing text with
  | nil => rfl
  | cons a rest ih =>
    simp only [thread, List.zip_cons_cons]
    cases hkeeps : keeps (step text a).1 with
    | false =>
      rw [List.filter_cons_of_neg (by simp [hkeeps]), List.filter_cons_of_neg (by simp [hkeeps]),
        hidle text a hkeeps]
      exact ih text
    | true =>
      rw [List.filter_cons_of_pos hkeeps, List.filter_cons_of_pos (by simp [hkeeps]), List.map_cons,
        thread]
      simp only [ih]

/-- If each step is changed by what came of it, and gives the same text then, so do all the steps
together. -/
theorem thread_zipWith {α β : Type} {step : Text → α → β × Text} {change : α → β → α}
    {shorten : β → β}
    (hstep : ∀ text a, step text (change a (step text a).1)
      = (shorten (step text a).1, (step text a).2)) (text : Text) (steps : List α) :
    thread step text (List.zipWith change steps (thread step text steps).1)
      = ((thread step text steps).1.map shorten, (thread step text steps).2) := by
  induction steps generalizing text with
  | nil => rfl
  | cons a rest ih => simp only [thread, List.zipWith_cons_cons, hstep, ih, List.map_cons]

/-! ## Plans without misses -/

/-- The names that were taken; the outcomes are those of the names, in order. -/
def takenNames (names : List String) (outcomes : List ItemOutcome) : List String :=
  ((names.zip outcomes).filter (·.2.isFound)).map (·.1)

/-- The entry without the names that missed. -/
def ModulePlan.withoutMisses (entry : ModulePlan) (share : ModuleShare) : ModulePlan :=
  { entry with
    functions := takenNames entry.functions share.outcomes
    structs := takenNames entry.structs (share.outcomes.drop entry.functions.length) }

/-- The plan without the names that missed in a split by it. -/
def Plan.withoutMisses (plan : Plan) (parts : Split) : Plan :=
  List.zipWith ModulePlan.withoutMisses plan parts.modules

/-- What the module received, without what it missed. -/
def ModuleShare.withoutMisses (share : ModuleShare) : ModuleShare :=
  { share with findings := share.findings.filter (·.isFound) }

theorem Finding.isFound_outcome (finding : Finding) :
    finding.outcome.isFound = finding.isFound := by
  rcases finding with _ | _ | _ | _ <;> rfl

theorem Finding.fragments_of_miss {finding : Finding} (h : finding.isFound = false) :
    finding.fragments = [] := by
  cases finding with
  | miss reason => rfl
  | function name text => cases h
  | struct name definition impls => cases h

/-- A request that misses leaves the text as it is. -/
theorem Request.take_of_miss (text : Text) (request : Request)
    (h : (request.take text).1.isFound = false) : (request.take text).2 = text := by
  unfold Request.take at h ⊢
  split at h
  · split at h
    · cases h
    · rfl
  · split at h
    · cases h
    · rfl

theorem zip_append_left {α β : Type} (front back : List α) (others : List β) :
    (front ++ back).zip others = front.zip others ++ back.zip (others.drop front.length) := by
  induction front generalizing others with
  | nil => rfl
  | cons a front ih =>
    cases others with
    | nil => simp
    | cons b others =>
      rw [List.cons_append, List.zip_cons_cons, ih, List.zip_cons_cons, List.cons_append]
      rfl

theorem map_takenNames (request : String → Request) (names : List String)
    (findings : List Finding) :
    (takenNames names (findings.map (·.outcome))).map request
      = (((names.map request).zip findings).filter (·.2.isFound)).map (·.1) := by
  have hfound : ((·.2.isFound) ∘ Prod.map id (·.outcome) : String × Finding → Bool)
      = (·.2.isFound) ∘ Prod.map request id := funext fun pair => pair.2.isFound_outcome
  rw [takenNames]
  simp only [List.zip_map_left, List.zip_map_right, List.filter_map, List.map_map, hfound]
  rfl

/-- The requests that are left are those that were taken. -/
theorem ModulePlan.requests_withoutMisses (entry : ModulePlan) (share : ModuleShare) :
    (entry.withoutMisses share).requests
      = ((entry.requests.zip share.findings).filter (·.2.isFound)).map (·.1) := by
  rw [requests, requests, zip_append_left, List.filter_append, List.map_append, List.length_map,
    ← map_takenNames, ← map_takenNames, withoutMisses, ModuleShare.outcomes, List.map_drop]

theorem ModulePlan.take_withoutMisses (text : Text) (entry : ModulePlan) :
    (entry.withoutMisses (entry.take text).1).take text
      = ((entry.take text).1.withoutMisses, (entry.take text).2) := by
  have hkept := thread_filter Request.take_of_miss text entry.requests
  rw [take, requests_withoutMisses]
  simp only [take, hkept]
  rfl

/-- A plan without the names that missed gives what the plan gave, without the misses. -/
theorem split_withoutMisses_eq (text : Text) (plan : Plan) :
    split text (plan.withoutMisses (split text plan))
      = ⟨(split text plan).modules.map (·.withoutMisses), (split text plan).remaining⟩ := by
  have hplan := thread_zipWith ModulePlan.take_withoutMisses text plan
  simp only [split, Plan.withoutMisses, hplan]

namespace ModuleShare

theorem fragments_withoutMisses (share : ModuleShare) :
    share.withoutMisses.fragments = share.fragments := by
  unfold fragments withoutMisses
  induction share.findings with
  | nil => rfl
  | cons finding rest ih =>
    cases hfound : finding.isFound with
    | false =>
      rw [List.filter_cons_of_neg (by simp [hfound]), List.flatMap_cons, ih,
        Finding.fragments_of_miss hfound, List.nil_append]
    | true =>
      rw [List.filter_cons_of_pos hfound, List.flatMap_cons, List.flatMap_cons, ih]

theorem outcomes_withoutMisses (share : ModuleShare) :
    share.withoutMisses.outcomes = share.outcomes.filter (·.isFound) := by
  rw [outcomes, outcomes, List.filter_map]
  congr 1
  exact List.filter_congr fun finding _ => finding.isFound_outcome.symm

end ModuleShare

/-- A plan without the names that missed takes the same fragments for every module and leaves the
same text. Its outcomes are those of the names that were taken, in the same order. -/
theorem split_withoutMisses (text : Text) (plan : Plan) :
    let parts := split text plan
    let again := split text (plan.withoutMisses parts)
    again.remaining = parts.remaining ∧
    again.modules.map (·.name) = parts.modules.map (·.name) ∧
    again.modules.map (·.fragments) = parts.modules.map (·.fragments) ∧
    again.modules.map (·.outcomes)
      = parts.modules.map fun share => share.outcomes.filter (·.isFound) := by
  intro parts again
  have hagain : again = ⟨parts.modules.map (·.withoutMisses), parts.remaining⟩ :=
    split_withoutMisses_eq text plan
  rw [hagain]
  refine ⟨rfl, ?_, ?_, ?_⟩
  · rw [List.map_map]
    rfl
  · rw [List.map_map]
    exact List.map_congr_left fun share _ => share.fragments_withoutMisses
  · rw [List.map_map]
    exact List.map_congr_left fun share _ => share.outcomes_withoutMisses

end Carver
