import Carver.Proofs.Conservation
import Carver.Proofs.StableWords
import Carver.Report

/-!
# Line endings do not matter

A text without carriage returns and the same text with one in front of every line feed are split in
step: every request comes to the same outcome on both, and its pieces and what is left of the second
text are those of the first one with the carriage returns (`split_crlf`). Functions and structs are
located in step because their forms are steady. An impl block ends at the same closing line; the
match of the shape then runs on to a place between the two characters of the line break, but what is
cut out ends at the brace.
-/

namespace Carver

open Text (crlf)

/-! ## Impl blocks -/

namespace Text

theorem endsLine_crlf {text : Text} (h : '\r' ∉ text) : endsLine (crlf text) = endsLine text := by
  induction text with
  | nil => rfl
  | cons c rest ih =>
    rw [List.mem_cons, not_or] at h
    by_cases hbreak : c = '\n'
    · subst hbreak
      rfl
    · have hreturn : (c == '\r') = false := by simpa using Ne.symm h.1
      rw [crlf_cons hbreak, endsLine, endsLine, ih h.2, hreturn, Bool.false_and, Bool.false_and]

theorem closesHere_crlf {rest : Text} (h : '\r' ∉ rest) :
    closesHere ('\n' :: crlf rest) = closesHere ('\n' :: rest) := by
  cases rest with
  | nil => rfl
  | cons c rest =>
    rw [List.mem_cons, not_or] at h
    by_cases hbreak : c = '\n'
    · subst hbreak
      rfl
    · rw [crlf_cons hbreak, closesHere, closesHere, endsLine_crlf h.2]

theorem closesHere_of_ne {c : Char} (h : c ≠ '\n') (rest : Text) :
    ¬ closesHere (c :: rest) = true := by
  rw [closesHere_iff]
  rintro ⟨later, heq, _⟩
  exact h (List.cons.inj heq).1

/-- The first closing line is the same one. -/
theorem splitClosing?_crlf {text : Text} (h : '\r' ∉ text) :
    splitClosing? (crlf text) = (splitClosing? text).map (Prod.map crlf crlf) := by
  induction text with
  | nil => rfl
  | cons c rest ih =>
    rw [List.mem_cons, not_or] at h
    by_cases hbreak : c = '\n'
    · subst hbreak
      rw [crlf_cons_newline, splitClosing?, if_neg (closesHere_of_ne (by decide) _), splitClosing?,
        closesHere_crlf h.2, splitClosing?]
      split
      · rename_i hcloses
        obtain ⟨later, heq, _⟩ := closesHere_iff.1 hcloses
        obtain ⟨_, rfl⟩ := List.cons.inj heq
        rfl
      · rw [ih h.2, Option.map_map, Option.map_map, Option.map_map]
        rfl
    · rw [crlf_cons hbreak, splitClosing?, if_neg (closesHere_of_ne hbreak _), splitClosing?,
        if_neg (closesHere_of_ne hbreak _), ih h.2, Option.map_map, Option.map_map]
      refine congrArg (Option.map · _) (funext fun pair => ?_)
      simp only [Function.comp_apply, Prod.map, crlf_cons hbreak]

end Text

theorem ImplBlock.crlf {name : String} (hname : Identifier.isUsable name = true)
    {before block rest : Text} (h : ImplBlock name before block rest) (hbefore : '\r' ∉ before)
    (hfree : '\r' ∉ block ++ rest) :
    ImplBlock name (crlf before) (crlf block) (crlf rest) := by
  obtain @⟨head, inner, _, hhead, hclosing⟩ := h
  simp only [List.mem_append, not_or] at hfree
  rw [Text.crlf_append]
  refine .block (((Shape.steady_implHead hname).stable before head hbefore hfree.1.1).2 hhead) ?_
  rw [← Text.crlf_append, Text.splitClosing?_crlf (by simp [hfree]), hclosing]
  rfl

/-- A block of a text with carriage returns begins where a block of the text does. -/
theorem exists_implBlock_of_crlf {name : String} (hname : Identifier.isUsable name = true)
    {before ahead block rest : Text} (hbefore : '\r' ∉ before) (hahead : '\r' ∉ ahead)
    (heq : crlf ahead = block ++ rest) (h : ImplBlock name (crlf before) block rest) :
    ∃ block rest, ahead = block ++ rest ∧ ImplBlock name before block rest := by
  obtain @⟨head, inner, _, hhead, hclosing⟩ := h
  have hsteady := Shape.steady_implHead hname
  rw [List.append_assoc] at heq
  obtain ⟨x, y, rfl, rfl, hy⟩ := Text.exists_split_crlf heq fun hreturn =>
    absurd hreturn (hsteady.last _ _ hhead)
  rw [List.mem_append, not_or] at hahead
  rw [hy, Text.splitClosing?_crlf hahead.2] at hclosing
  obtain ⟨⟨inner', rest'⟩, hsplit, _⟩ := Option.map_eq_some_iff.1 hclosing
  have hwhole := Text.append_of_splitClosing? hsplit
  rw [hwhole] at hsplit ⊢
  exact ⟨x ++ inner', rest', by rw [List.append_assoc],
    .block ((hsteady.stable before x hbefore hahead.1).1 hhead) hsplit⟩

/-- No block begins with a character of a line break. -/
theorem not_implBlock_of_break {name : String} {before block rest after : Text} {c : Char}
    (hc : c = '\r' ∨ c = '\n') (heq : c :: rest = block ++ after) :
    ¬ ImplBlock name before block after := by
  intro h
  obtain @⟨head, inner, _, hhead, _⟩ := h
  obtain ⟨u, d, t, rfl, hu, hd⟩ := (opens_head name before).exists_eq head hhead
  rcases u with _ | ⟨e, u⟩
  · obtain ⟨rfl, _⟩ := List.cons.inj heq
    rcases hc with rfl | rfl <;> simp at hd
  · obtain ⟨rfl, _⟩ := List.cons.inj heq
    have hindent := hu c (by simp)
    rcases hc with rfl | rfl <;> cases hindent

/-- The same blocks are taken out of a text with carriage returns. -/
theorem Carves.crlf {name : String} (hname : Identifier.isUsable name = true)
    {before ahead : Text} {pieces : List Text} {left : Text}
    (h : Carves name before ahead pieces left) (hbefore : '\r' ∉ before) (hahead : '\r' ∉ ahead) :
    Carves name (crlf before) (crlf ahead) (pieces.map Text.crlf) (Text.crlf left) := by
  induction h with
  | done => exact .done
  | @skip before c rest pieces left hnone _ ih =>
    rw [List.mem_cons, not_or] at hahead
    have hrest := ih (by simp [hbefore, hahead.1]) hahead.2
    by_cases hbreak : c = '\n'
    · subst hbreak
      rw [Text.crlf_append] at hrest
      rw [Text.crlf_cons_newline, Text.crlf_cons_newline]
      refine .skip (fun _ _ heq => not_implBlock_of_break (.inl rfl) heq)
        (.skip (fun _ _ heq => not_implBlock_of_break (.inr rfl) heq) ?_)
      rw [List.append_assoc]
      exact hrest
    · rw [Text.crlf_append, Text.crlf_cons hbreak, Text.crlf_nil] at hrest
      rw [Text.crlf_cons hbreak, Text.crlf_cons hbreak]
      refine .skip (fun block after heq hblock => ?_) hrest
      rw [← Text.crlf_cons hbreak] at heq
      obtain ⟨block', after', heq', hblock'⟩ :=
        exists_implBlock_of_crlf hname hbefore (by simp [hahead]) heq hblock
      exact hnone block' after' heq' hblock'
  | @take before block rest pieces left hblock _ ih =>
    have hahead' := hahead
    rw [List.mem_append, not_or] at hahead'
    have hrest := ih (by simp [hbefore, hahead'.1]) hahead'.2
    rw [Text.crlf_append] at hrest
    rw [Text.crlf_append, List.map_cons]
    exact .take (hblock.crlf hname hbefore hahead) hrest

theorem cutSpans_crlf {name : String} (hname : Identifier.isUsable name = true) {text : Text}
    (hfree : '\r' ∉ text) :
    cutSpans 0 (crlf text) (locateImpls (crlf text) name)
      = ((cutSpans 0 text (locateImpls text name)).1.map crlf,
        crlf (cutSpans 0 text (locateImpls text name)).2) := by
  obtain ⟨pieces, left, hcarves⟩ := exists_carves name [] text
  rw [hcarves.cutSpans_eq hname, (hcarves.crlf hname (by simp) hfree).cutSpans_eq hname]

/-! ## Functions and structs -/

/-- A search finds nothing in either text, or the first item of both. -/
theorem find?_crlf {p : Pattern} {form : Text → Text → Prop} (hshape : p.Describes form)
    (hsteady : Grammar.Steady form) {text : Text} (hfree : '\r' ∉ text) :
    (p.find? text = none ∧ p.find? (crlf text) = none) ∨
      ∃ x y z hit, text = x ++ (y ++ z) ∧ p.find? text = some hit ∧
        hit.span = ⟨Text.size x, Text.size (x ++ y)⟩ ∧
        Grammar.IsFirst form (crlf text) ⟨Text.size (crlf x), Text.size (crlf (x ++ y))⟩ := by
  cases hfind : p.find? text with
  | none =>
    refine .inl ⟨rfl, ?_⟩
    rw [hshape.find?_eq_none_iff_not_spans] at hfind ⊢
    intro span hspan
    obtain ⟨span', hspan'⟩ := hsteady.spans_of_crlf hfree hspan
    exact hfind span' hspan'
  | some hit =>
    obtain ⟨⟨x, y, z, rfl, hword, hspan⟩, hfirst⟩ := hshape.isFirst_of_find? hfind
    rw [hspan] at hfirst
    rw [List.append_assoc] at hfree hfirst ⊢
    exact .inr ⟨x, y, z, hit, rfl, rfl, hspan, hsteady.isFirst_crlf hfree hword hfirst⟩

/-- The function is cut out of a text with carriage returns as out of the text. -/
theorem extractFunction_crlf {name : String} (hname : Identifier.isUsable name = true) {text : Text}
    (hfree : '\r' ∉ text) :
    extractFunction (crlf text) name = (extractFunction text name).map Extraction.crlf := by
  have hshape := Shape.describes_function name
  rw [extractFunction, extractFunction, locateFunction, locateFunction]
  rcases find?_crlf hshape (Shape.steady_functionHead hname) hfree with
    ⟨hnone, hnone'⟩ | ⟨x, y, z, hit, rfl, hfind, hspan, hfirst⟩
  · rw [hnone, hnone']
    rfl
  · obtain ⟨hit', hfind', hstart'⟩ :=
      Option.map_eq_some_iff.1 ((hshape.start_eq_some_iff _).2 ⟨_, hfirst⟩)
    rw [hfind, hfind', Option.map_some, Option.map_some]
    simp only [hspan, hstart', extractFrom?_crlf]
    cases extractFrom? (x ++ (y ++ z)) (Text.size x) <;> rfl

/-- The struct and its impl blocks, with carriage returns. -/
def StructExtraction.crlf (e : StructExtraction) : StructExtraction :=
  ⟨e.definition.map Text.crlf, e.impls.map Text.crlf, e.remaining.crlf⟩

theorem cutStruct_crlf {name : String} (hname : Identifier.isUsable name = true) {text : Text}
    (hfree : '\r' ∉ text) : cutStruct (crlf text) name = (cutStruct text name).crlf := by
  have hshape := Shape.describes_struct name
  rw [cutStruct, cutStruct]
  rcases find?_crlf hshape (Shape.steady_structItem hname) hfree with
    ⟨hnone, hnone'⟩ | ⟨x, y, z, hit, rfl, hfind, hspan, hfirst⟩
  · rw [locateStruct, locateStruct, hnone, hnone']
    simp only [Option.map_none, Option.getD_none, cutSpans_crlf hname hfree]
    rfl
  · have hstruct := (hshape.span_eq_some_iff (Shape.delimited_struct name) _).2 hfirst
    have hleft : '\r' ∉ x ++ z := by
      simp only [List.mem_append, not_or] at hfree ⊢
      exact ⟨hfree.1, hfree.2.2⟩
    rw [locateStruct, locateStruct, hstruct, hfind, ← List.append_assoc]
    simp only [Option.map_some, Option.getD_some, hspan, Text.crlf_append,
      Text.slice_append, Text.erase_append]
    rw [← Text.crlf_append x z, cutSpans_crlf hname hleft]
    rfl

theorem extractStruct_crlf {name : String} (hname : Identifier.isUsable name = true) {text : Text}
    (hfree : '\r' ∉ text) :
    extractStruct (crlf text) name = (extractStruct text name).map StructExtraction.crlf := by
  have hempty :
      (cutStruct text name).crlf.blocks.isEmpty = (cutStruct text name).blocks.isEmpty := by
    rw [StructExtraction.blocks, StructExtraction.blocks, StructExtraction.crlf]
    cases (cutStruct text name).definition <;> cases (cutStruct text name).impls <;> rfl
  rw [extractStruct, extractStruct, cutStruct_crlf hname hfree]
  simp only [hempty]
  split <;> rfl

/-! ## Splits -/

/-- The finding with carriage returns in its texts. -/
def Finding.crlf : Finding → Finding
  | .function name text => .function name text.crlf
  | .struct name definition impls => .struct name (definition.map Text.crlf) (impls.map Text.crlf)
  | .miss reason => .miss reason

theorem Finding.outcome_crlf (finding : Finding) : finding.crlf.outcome = finding.outcome := by
  cases finding with
  | function name text => rfl
  | struct name definition impls =>
    cases definition <;> simp [crlf, outcome]
  | miss reason => rfl

theorem Finding.fragments_crlf (finding : Finding) :
    finding.crlf.fragments = finding.fragments.map Text.crlf := by
  cases finding with
  | function name text => rfl
  | struct name definition impls =>
    cases definition <;> simp [crlf, fragments]
  | miss reason => rfl

theorem Request.take_crlf {request : Request} (hname : Identifier.isUsable request.name = true)
    {text : Text} (hfree : '\r' ∉ text) :
    request.take (crlf text) = ((request.take text).1.crlf, crlf (request.take text).2) := by
  obtain ⟨kind, name⟩ := request
  cases kind with
  | function =>
    simp only [Request.take]
    rw [extractFunction_crlf hname hfree]
    cases extractFunction text name <;> rfl
  | struct =>
    simp only [Request.take]
    rw [extractStruct_crlf hname hfree]
    cases extractStruct text name <;> rfl

/-- If every step goes in step on both texts and puts no carriage return into what is left, so do
all the steps together. -/
theorem thread_crlf {α β : Type} {step : Text → α → β × Text} {change : β → β} {steps : List α}
    (hstep : ∀ a ∈ steps, ∀ text, '\r' ∉ text →
      step (crlf text) a = (change (step text a).1, crlf (step text a).2))
    (hleft : ∀ a text, (step text a).2.Sublist text) {text : Text} (hfree : '\r' ∉ text) :
    thread step (crlf text) steps
      = ((thread step text steps).1.map change, crlf (thread step text steps).2) := by
  induction steps generalizing text with
  | nil => rfl
  | cons a rest ih =>
    rw [List.forall_mem_cons] at hstep
    have hfree' : '\r' ∉ (step text a).2 := fun hmem => hfree ((hleft a text).mem hmem)
    rw [thread, thread, hstep.1 text hfree]
    simp only [ih hstep.2 hfree']
    rfl

/-- What the module received, with carriage returns. -/
def ModuleShare.crlf (share : ModuleShare) : ModuleShare :=
  ⟨share.name, share.findings.map Finding.crlf⟩

theorem ModulePlan.take_crlf {entry : ModulePlan}
    (hnames : ∀ request ∈ entry.requests, Identifier.isUsable request.name = true) {text : Text}
    (hfree : '\r' ∉ text) :
    entry.take (crlf text) = ((entry.take text).1.crlf, crlf (entry.take text).2) := by
  rw [ModulePlan.take, ModulePlan.take,
    thread_crlf
      (fun request hrequest _ hfree' => Request.take_crlf (hnames request hrequest) hfree')
      (fun request text => (Request.cuts_take text request).sublist) hfree]
  rfl

/-- Line endings do not matter: with a carriage return in front of every line feed, a split comes to
the same outcomes, and its fragments and what remains are those of the text with the carriage
returns. -/
theorem split_crlf {text : Text} {plan : Plan} (hfree : '\r' ∉ text)
    (hnames : ∀ entry ∈ plan, ∀ request ∈ entry.requests,
      Identifier.isUsable request.name = true) :
    (split (crlf text) plan).modules.map (fun share => (share.name, share.outcomes))
        = (split text plan).modules.map (fun share => (share.name, share.outcomes)) ∧
      (split (crlf text) plan).modules.map (·.fragments)
        = (split text plan).modules.map (fun share => share.fragments.map crlf) ∧
      (split (crlf text) plan).remaining = crlf (split text plan).remaining := by
  have hsplit : split (crlf text) plan
      = ⟨(split text plan).modules.map ModuleShare.crlf, crlf (split text plan).remaining⟩ := by
    rw [split, split, thread_crlf
      (fun entry hentry _ hfree' => ModulePlan.take_crlf (hnames entry hentry) hfree')
      (fun entry text => (ModulePlan.cuts_take text entry).sublist) hfree]
  rw [hsplit, List.map_map, List.map_map]
  refine ⟨List.map_congr_left fun share _ => ?_, List.map_congr_left fun share _ => ?_, rfl⟩
  · simp only [Function.comp_apply, ModuleShare.crlf, ModuleShare.outcomes, List.map_map,
      Prod.mk.injEq, true_and]
    exact List.map_congr_left fun finding _ => finding.outcome_crlf
  · simp only [Function.comp_apply, ModuleShare.crlf, ModuleShare.fragments, List.map_flatMap,
      List.flatMap_map, Finding.fragments_crlf]

/-- A documented function, a struct and an impl block, with line feeds only. -/
def brokenLines : Text :=
  "/// a\n#[inline]\nfn a(\n) \x7b\n\x7d\n\nstruct S \x7b\n\x7d\n\nimpl S \x7b\n\x7d \n\nfn b() \x7b".toList

/-- A plan that takes a function and a struct out of the text and misses two names. -/
def brokenPlan : Plan :=
  [⟨"first", ["a", "b"], [], []⟩, ⟨"second", ["missing"], ["S"], []⟩]

/-- The sample is split in step, and something of it is taken. -/
theorem split_crlf_sample :
    (split (crlf brokenLines) brokenPlan).remaining
        = crlf (split brokenLines brokenPlan).remaining ∧
      (split brokenLines brokenPlan).modules.map (·.found) = [1, 1] :=
  ⟨(split_crlf (by decide +kernel) (by decide +kernel)).2.2, by decide +kernel⟩

end Carver
