import Carver.Proofs.BalancedBlocks
import Carver.Proofs.FieldLists
import Carver.Proofs.OverlaidTables
import Carver.Proofs.SpanRemoval
import Carver.Proofs.WholeFunctions
import Carver.Report
import Mathlib.Algebra.GroupWithZero.Nat

/-!
# Outcomes account for names and fragments

Each request has one outcome, and each fragment belongs to one outcome: a function that is taken is
one fragment, a struct is as many as it has blocks, and none of them is empty
(`Request.tells_take`). It makes no difference whether outcomes and fragments are pushed to two
lists on the way or read off what was found (`ModulePlan.receive_eq`). Through a whole split the
fragments of a module are therefore the fragments of its outcomes one after the other, so the
outcomes alone say how many there are and whether there are any (`split_accounts`).
-/

namespace Carver

/-! ## Fragments are not empty -/

theorem Text.slice_ne_nil {text : Text} {span : Span} (hadmits : text.Admits span)
    (hlt : span.start < span.stop) : text.slice span ≠ [] := by
  obtain ⟨before, piece, after, rfl, rfl⟩ :=
    Text.exists_append_of_admits hadmits (Nat.le_of_lt hlt)
  rw [Text.slice_append]
  rintro rfl
  rw [List.append_nil] at hlt
  exact Nat.lt_irrefl _ hlt

theorem text_ne_nil_of_extractFunction {text : Text} {name : String} {cut : Extraction}
    (h : extractFunction text name = .ok cut) : cut.text ≠ [] := by
  obtain ⟨head, -, hcut⟩ := exists_of_extractFunction h
  obtain ⟨span, hspan, rfl⟩ := Option.map_eq_some_iff.1 hcut
  obtain ⟨stop, hstop, rfl⟩ := Option.map_eq_some_iff.1 hspan
  obtain ⟨hlt, hadmits⟩ := (Braces.balancedEnd_eq_some_iff.1 hstop).lt_and_admits
  exact Text.slice_ne_nil hadmits hlt

theorem start_lt_stop_of_locateStruct {text : Text} {name : String} {span : Span}
    (h : locateStruct text name = some span) : span.start < span.stop := by
  obtain ⟨opening, fields, @⟨before, front, after, -, rfl, -, -, -⟩⟩ :=
    exists_opensFields_of_locateStruct h
  have hpos : 0 < Text.size (front ++ '{' :: (fields ++ ['}'])) :=
    Text.size_pos_of_ne_nil (by simp)
  show Text.size before < Text.size (before ++ (front ++ '{' :: (fields ++ ['}'])))
  rw [Text.size_append]
  omega

theorem ne_nil_of_mem_blocks {text block : Text} {name : String}
    (h : block ∈ (cutStruct text name).blocks) : block ≠ [] := by
  rw [cutStruct_eq, StructExtraction.blocks, List.mem_append, Option.mem_toList,
    Option.map_eq_some_iff] at h
  rcases h with ⟨span, hspan, rfl⟩ | himpl
  · exact Text.slice_ne_nil ((laid_of_locateStruct hspan).admits span (by simp))
      (start_lt_stop_of_locateStruct hspan)
  · obtain ⟨span, hspan, rfl⟩ := List.mem_map.1 himpl
    exact Text.slice_ne_nil ((laid_locateImpls _ name).admits span hspan)
      ((marks_locateImpls _ name).start_lt_stop span hspan)

/-! ## Single requests -/

/-- Number of fragments that moved. -/
def ItemStatus.blocks : ItemStatus → Nat
  | .extracted blocks => blocks
  | .notFound | .truncated => 0

/-- What may come of a definition of this kind: a function is one fragment, a struct is at least
one, and of the two only a function can be truncated. -/
inductive ItemStatus.Possible : Kind → ItemStatus → Prop
  | function : Possible .function (.extracted 1)
  | struct {blocks : Nat} : 1 ≤ blocks → Possible .struct (.extracted blocks)
  | notFound (kind : Kind) : Possible kind .notFound
  | truncated : Possible .function .truncated

/-- The outcome is a possible one, and tells how many fragments moved. -/
structure ItemOutcome.Tells (outcome : ItemOutcome) (fragments : List Text) : Prop where
  possible : ItemStatus.Possible outcome.kind outcome.status
  length_eq : fragments.length = outcome.status.blocks
  ne_nil : ∀ fragment ∈ fragments, fragment ≠ []

theorem ItemStatus.Possible.blocks_ne_zero {kind : Kind} {blocks : Nat}
    (h : Possible kind (.extracted blocks)) : blocks ≠ 0 := by
  cases h with
  | function => exact Nat.one_ne_zero
  | struct hblocks => omega

theorem ItemOutcome.Tells.eq_nil_iff {outcome : ItemOutcome} {fragments : List Text}
    (h : outcome.Tells fragments) : fragments = [] ↔ outcome.isFound = false := by
  have hlength := h.length_eq
  have hpossible := h.possible
  rw [← List.length_eq_zero_iff, hlength, isFound]
  cases hstatus : outcome.status with
  | extracted blocks =>
    rw [hstatus] at hpossible
    simpa [ItemStatus.blocks] using hpossible.blocks_ne_zero
  | notFound => simp [ItemStatus.blocks]
  | truncated => simp [ItemStatus.blocks]

/-- A function that is not taken has no head or no end. -/
theorem miss_of_extractFunction {text : Text} {name : String} {reason : Miss}
    (h : extractFunction text name = .error reason) :
    reason = .notFound ⟨.function, name⟩ ∨ reason = .truncated ⟨.function, name⟩ := by
  rw [extractFunction] at h
  split at h
  · exact .inl (Except.error.inj h).symm
  · split at h
    · exact .inr (Except.error.inj h).symm
    · cases h

/-- A struct is not taken if there is no block of its name. -/
theorem extractStruct_cases (text : Text) (name : String) :
    extractStruct text name = .error (.notFound ⟨.struct, name⟩) ∨
      (cutStruct text name).blocks ≠ [] ∧ extractStruct text name = .ok (cutStruct text name) := by
  rw [extractStruct]
  cases hblocks : (cutStruct text name).blocks with
  | nil => exact .inl rfl
  | cons block blocks => exact .inr ⟨List.cons_ne_nil _ _, rfl⟩

/-- What comes of a request is told under its kind and name, and tells of the fragments that moved
for it. -/
theorem Request.tells_take (text : Text) (request : Request) :
    ((request.take text).1.outcome.kind = request.kind ∧
      (request.take text).1.outcome.name = request.name) ∧
      (request.take text).1.outcome.Tells (request.take text).1.fragments := by
  obtain ⟨kind, name⟩ := request
  cases kind with
  | function =>
    simp only [take]
    cases hcut : extractFunction text name with
    | ok cut =>
      refine ⟨⟨rfl, rfl⟩, .function, rfl, ?_⟩
      exact List.forall_mem_singleton.2 (text_ne_nil_of_extractFunction hcut)
    | error reason =>
      rcases miss_of_extractFunction hcut with rfl | rfl
      · exact ⟨⟨rfl, rfl⟩, .notFound .function, rfl, List.forall_mem_nil _⟩
      · exact ⟨⟨rfl, rfl⟩, .truncated, rfl, List.forall_mem_nil _⟩
  | struct =>
    simp only [take]
    rcases extractStruct_cases text name with hnone | ⟨hblocks, hcut⟩
    · rw [hnone]
      exact ⟨⟨rfl, rfl⟩, .notFound .struct, rfl, List.forall_mem_nil _⟩
    · rw [hcut]
      refine ⟨⟨rfl, rfl⟩, .struct (List.length_pos_iff.2 hblocks), rfl, ?_⟩
      exact fun block hblock => ne_nil_of_mem_blocks hblock

/-! ## Two lists that grow

Receiving a module by two loops, one over its functions and one over its structs, that push to a
list of fragments and to a list of outcomes, each at its own rate, is the same as reading both lists
off what was found (`ModulePlan.receive_eq`).
-/

theorem thread_append {α β : Type} (step : Text → α → β × Text) (text : Text)
    (front back : List α) :
    thread step text (front ++ back)
      = ((thread step text front).1 ++ (thread step (thread step text front).2 back).1,
        (thread step (thread step text front).2 back).2) := by
  induction front generalizing text with
  | nil => simp [thread]
  | cons a front ih => simp only [List.cons_append, thread, ih]

/-- What was received so far, and the text that is left. -/
structure Receipt where
  fragments : List Text
  outcomes : List ItemOutcome
  remaining : Text

namespace Receipt

/-- What is pushed for a name that is missed. -/
def pushMiss (receipt : Receipt) (name : String) : Miss → Receipt
  | .notFound request =>
    { receipt with outcomes := receipt.outcomes ++ [⟨name, request.kind, .notFound⟩] }
  | .truncated request =>
    { receipt with outcomes := receipt.outcomes ++ [⟨name, request.kind, .truncated⟩] }

/-- What is pushed for a function. -/
def pushFunction (receipt : Receipt) (name : String) : Receipt :=
  match extractFunction receipt.remaining name with
  | .ok cut =>
    { fragments := receipt.fragments ++ [cut.text]
      outcomes := receipt.outcomes ++ [⟨name, .function, .extracted 1⟩]
      remaining := cut.remaining }
  | .error reason => receipt.pushMiss name reason

/-- What is pushed for a struct. -/
def pushStruct (receipt : Receipt) (name : String) : Receipt :=
  match extractStruct receipt.remaining name with
  | .ok cut =>
    { fragments := receipt.fragments ++ cut.blocks
      outcomes := receipt.outcomes ++ [⟨name, .struct, .extracted cut.blocks.length⟩]
      remaining := cut.remaining }
  | .error reason => receipt.pushMiss name reason

/-- Both lists, read off what was found. -/
def ofFindings (findings : List Finding) (text : Text) : Receipt :=
  ⟨findings.flatMap (·.fragments), findings.map (·.outcome), text⟩

theorem pushFunction_ofFindings (findings : List Finding) (text : Text) (name : String) :
    (ofFindings findings text).pushFunction name
      = ofFindings (findings ++ [(Request.take text ⟨.function, name⟩).1])
        (Request.take text ⟨.function, name⟩).2 := by
  simp only [pushFunction, ofFindings, Request.take, List.map_append, List.map_singleton,
    List.flatMap_append, List.flatMap_singleton]
  cases hcut : extractFunction text name with
  | ok cut => rfl
  | error reason =>
    rcases miss_of_extractFunction hcut with rfl | rfl
    · simp [pushMiss, Finding.fragments, Finding.outcome]
    · simp [pushMiss, Finding.fragments, Finding.outcome]

theorem pushStruct_ofFindings (findings : List Finding) (text : Text) (name : String) :
    (ofFindings findings text).pushStruct name
      = ofFindings (findings ++ [(Request.take text ⟨.struct, name⟩).1])
        (Request.take text ⟨.struct, name⟩).2 := by
  simp only [pushStruct, ofFindings, Request.take, List.map_append, List.map_singleton,
    List.flatMap_append, List.flatMap_singleton]
  rcases extractStruct_cases text name with hnone | ⟨-, hcut⟩
  · simp [hnone, pushMiss, Finding.fragments, Finding.outcome]
  · rw [hcut]
    rfl

/-- A loop that pushes what its requests give has pushed what they give in turn. -/
theorem foldl_ofFindings {push : Receipt → String → Receipt} {request : String → Request}
    (hpush : ∀ findings text name, push (ofFindings findings text) name
      = ofFindings (findings ++ [((request name).take text).1]) ((request name).take text).2)
    (findings : List Finding) (text : Text) (names : List String) :
    names.foldl push (ofFindings findings text)
      = ofFindings (findings ++ (thread Request.take text (names.map request)).1)
        (thread Request.take text (names.map request)).2 := by
  induction names generalizing findings text with
  | nil => simp [thread]
  | cons name rest ih =>
    rw [List.foldl_cons, hpush, ih, List.map_cons, thread, List.append_assoc,
      List.singleton_append]

end Receipt

/-- Receives a module: its functions, and then its structs. -/
def ModulePlan.receive (text : Text) (entry : ModulePlan) : Receipt :=
  entry.structs.foldl Receipt.pushStruct
    (entry.functions.foldl Receipt.pushFunction ⟨[], [], text⟩)

/-- The loops push the fragments and the outcomes of the module's share, and leave the same text. -/
theorem ModulePlan.receive_eq (text : Text) (entry : ModulePlan) :
    entry.receive text
      = ⟨(entry.take text).1.fragments, (entry.take text).1.outcomes, (entry.take text).2⟩ := by
  change entry.structs.foldl Receipt.pushStruct
    (entry.functions.foldl Receipt.pushFunction (Receipt.ofFindings [] text)) = _
  rw [Receipt.foldl_ofFindings Receipt.pushFunction_ofFindings,
    Receipt.foldl_ofFindings Receipt.pushStruct_ofFindings, List.nil_append, take, requests,
    thread_append]
  rfl

/-! ## Whole splits -/

/-- Each result comes from its step, in order. -/
theorem forall₂_thread {α β : Type} {step : Text → α → β × Text} {holds : α → β → Prop}
    (hstep : ∀ text a, holds a (step text a).1) (text : Text) (steps : List α) :
    List.Forall₂ holds steps (thread step text steps).1 := by
  induction steps generalizing text with
  | nil => exact .nil
  | cons a rest ih => exact .cons (hstep text a) (ih (step text a).2)

/-- The outcomes of a module are those of the names of its entry, and account for its fragments. -/
structure ModuleShare.AccountsFor (share : ModuleShare) (entry : ModulePlan) : Prop where
  name_eq : share.name = entry.name
  /-- The functions and then the structs, as they are listed. -/
  names_eq : share.outcomes.map (fun outcome => (outcome.kind, outcome.name))
    = entry.functions.map (Kind.function, ·) ++ entry.structs.map (Kind.struct, ·)
  /-- The fragments come in groups, one for each outcome. -/
  fragments_eq : ∃ groups : List (List Text), share.fragments = groups.flatten ∧
    List.Forall₂ ItemOutcome.Tells share.outcomes groups
  length_eq : share.fragments.length = (share.outcomes.map (·.status.blocks)).sum
  found_le : share.found ≤ share.requested
  requested_eq : share.requested = entry.requested
  idle_iff : share.fragments = [] ↔ share.found = 0

theorem length_flatten_of_tells {outcomes : List ItemOutcome} {groups : List (List Text)}
    (h : List.Forall₂ ItemOutcome.Tells outcomes groups) :
    groups.flatten.length = (outcomes.map (·.status.blocks)).sum := by
  induction h with
  | nil => rfl
  | cons htells _ ih =>
    rw [List.flatten_cons, List.length_append, List.map_cons, List.sum_cons, htells.length_eq, ih]

theorem flatten_eq_nil_iff_of_tells {outcomes : List ItemOutcome} {groups : List (List Text)}
    (h : List.Forall₂ ItemOutcome.Tells outcomes groups) :
    groups.flatten = [] ↔ outcomes.filter (·.isFound) = [] := by
  induction h with
  | nil => simp
  | @cons outcome group outcomes groups htells _ ih =>
    rw [List.flatten_cons, List.append_eq_nil_iff, htells.eq_nil_iff, ih]
    cases hfound : outcome.isFound with
    | false => simp [hfound]
    | true => simp [hfound]

theorem ModulePlan.accountsFor_take (text : Text) (entry : ModulePlan) :
    (entry.take text).1.AccountsFor entry := by
  have hall : List.Forall₂ (fun request finding =>
      (finding.outcome.kind = request.kind ∧ finding.outcome.name = request.name) ∧
        finding.outcome.Tells finding.fragments) entry.requests (entry.take text).1.findings :=
    forall₂_thread Request.tells_take text entry.requests
  have hnames : (entry.take text).1.outcomes.map (fun outcome => (outcome.kind, outcome.name))
      = entry.functions.map (Kind.function, ·) ++ entry.structs.map (Kind.struct, ·) :=
    calc (entry.take text).1.outcomes.map (fun outcome => (outcome.kind, outcome.name))
        = entry.requests.map (fun request => (request.kind, request.name)) := by
          rw [ModuleShare.outcomes, List.map_map]
          refine (map_eq_map_of_forall₂ (hall.imp ?_)).symm
          rintro request finding ⟨⟨hkind, hname⟩, -⟩
          rw [Function.comp_apply, hkind, hname]
      _ = entry.functions.map (Kind.function, ·) ++ entry.structs.map (Kind.struct, ·) := by
          simp [ModulePlan.requests, Function.comp_def]
  have hgroups : List.Forall₂ ItemOutcome.Tells (entry.take text).1.outcomes
      ((entry.take text).1.findings.map (·.fragments)) := by
    rw [ModuleShare.outcomes, List.forall₂_map_left_iff, List.forall₂_map_right_iff,
      List.forall₂_same]
    intro finding hfinding
    exact forall_mem_of_forall₂ (hall.imp fun _ _ h => h.2) finding hfinding
  have hflatten : (entry.take text).1.fragments
      = ((entry.take text).1.findings.map (·.fragments)).flatten := List.flatMap_def
  constructor
  case name_eq => rfl
  case names_eq => exact hnames
  case fragments_eq => exact ⟨_, hflatten, hgroups⟩
  case length_eq => rw [hflatten, length_flatten_of_tells hgroups]
  case found_le => exact List.length_filter_le _ _
  case requested_eq =>
    have hlength := congrArg List.length hnames
    simpa [ModuleShare.requested, ModulePlan.requested] using hlength
  case idle_iff =>
    rw [hflatten, flatten_eq_nil_iff_of_tells hgroups, ModuleShare.found, List.length_eq_zero_iff]

/-- Every entry of a plan has its share, in order, and the outcomes of the share account for its
names and its fragments. -/
theorem split_accounts (text : Text) (plan : Plan) :
    List.Forall₂ (fun entry share => share.AccountsFor entry) plan (split text plan).modules :=
  forall₂_thread ModulePlan.accountsFor_take text plan

end Carver
