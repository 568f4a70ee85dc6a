import Carver.Definition.Extract
import Carver.Proofs.Conservation

/-!
# Splits that find nothing

If every request of a plan misses in a text, a split by the plan takes nothing and leaves the text
as it is (`split_of_misses`): each request is tried on what the others before it have left, and that
is the same text every time. In the empty text every request misses.
-/

namespace Carver

/-! ## Requests that miss -/

/-- Nothing has the shape of the request, and the text is left as it is. -/
def Request.Misses (text : Text) (request : Request) : Prop :=
  request.take text = (.miss (.notFound request), text)

/-- What a module receives if none of its definitions is found. -/
def ModulePlan.missed (entry : ModulePlan) : ModuleShare :=
  ⟨entry.name, entry.requests.map (.miss <| .notFound ·)⟩

@[simp] theorem ModulePlan.fragments_missed (entry : ModulePlan) : entry.missed.fragments = [] := by
  simp [ModuleShare.fragments, missed, Finding.fragments]

/-- Steps that leave the text as it is are all tried on the same text. -/
theorem thread_of_idle {α β : Type} {step : Text → α → β × Text} {text : Text} {result : α → β}
    {steps : List α} (h : ∀ a ∈ steps, step text a = (result a, text)) :
    thread step text steps = (steps.map result, text) := by
  induction steps with
  | nil => rfl
  | cons a rest ih =>
    rw [List.forall_mem_cons] at h
    simp only [thread, h.1, ih h.2, List.map_cons]

/-- A plan whose requests all miss takes nothing and leaves the text as it is. -/
theorem split_of_misses {text : Text} {plan : Plan}
    (h : ∀ entry ∈ plan, ∀ request ∈ entry.requests, request.Misses text) :
    split text plan = ⟨plan.map (·.missed), text⟩ := by
  have hentry : ∀ entry ∈ plan, ModulePlan.take text entry = (entry.missed, text) := by
    intro entry hmem
    simp only [ModulePlan.take, thread_of_idle (h entry hmem)]
    rfl
  simp only [split, thread_of_idle hentry]

/-! ## The empty text -/

namespace Pattern

/-- A sequence with a given character in it takes one. -/
theorem not_spells_nil {c : Char} {ps : List Pattern} (h : char c ∈ ps) : ¬ (all ps).Spells [] := by
  intro hnil
  induction ps with
  | nil => cases h
  | cons p rest ih =>
    obtain ⟨u, v, heq, hu, hv⟩ := spells_all_cons.1 hnil
    obtain ⟨rfl, rfl⟩ := List.append_eq_nil_iff.1 heq.symm
    rcases List.mem_cons.1 h with rfl | h
    · cases spells_char.1 hu
    · exact ih h hv

theorem find?_nil {c : Char} {ps : List Pattern} (h : char c ∈ ps) : (all ps).find? [] = none := by
  rw [find?_eq_none_iff]
  intro start hstart d hd
  obtain ⟨word, hahead, _⟩ := Cursor.mem_onward_iff.1 hstart
  obtain ⟨taken, htaken, hahead', _⟩ := hd.exists_spells
  have hnil : taken = [] := by
    rw [hahead'] at hahead
    simp only [List.nil_eq, List.append_eq_nil_iff] at hahead
    exact hahead.2.1
  rw [hnil] at htaken
  exact not_spells_nil h htaken

theorem findAll_nil (p : Pattern) : p.findAll [] = [] := by
  have hnone : (p.ends (Cursor.start [])).find?
      (fun d => d.ahead.length < (Cursor.start []).ahead.length) = none := by
    rw [List.find?_eq_none]
    simp [Cursor.start]
  rw [findAll_eq_hitsFrom, hitsFrom_eq, hnone]
  rfl

end Pattern

open Pattern

/-- Nothing is found in the empty text. -/
theorem Request.misses_nil (request : Request) : request.Misses [] := by
  obtain ⟨kind, name⟩ := request
  cases kind with
  | function =>
    have hlocate : locateFunction [] name = none := by
      rw [locateFunction, Shape.function, find?_nil (c := '{') (by simp)]
      rfl
    have hextract : extractFunction [] name = .error (.notFound ⟨.function, name⟩) := by
      rw [extractFunction, hlocate]
    simp only [Misses, take, hextract]
  | struct =>
    have hlocate : locateStruct [] name = none := by
      rw [locateStruct, Shape.struct, find?_nil (c := '{') (by simp)]
      rfl
    have himpls : locateImpls [] name = [] := by
      rw [locateImpls, findAll_nil, List.map_nil]
    have hextract : extractStruct [] name = .error (.notFound ⟨.struct, name⟩) := by
      simp [extractStruct, cutStruct, hlocate, himpls, cutSpans, StructExtraction.blocks]
    simp only [Misses, take, hextract]

/-- There is nothing to move in the empty text. -/
theorem split_nil (plan : Plan) : split [] plan = ⟨plan.map (·.missed), []⟩ :=
  split_of_misses fun _ _ request _ => request.misses_nil

end Carver
