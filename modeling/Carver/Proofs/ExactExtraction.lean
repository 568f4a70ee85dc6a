import Carver.Proofs.Blocks
import Carver.Proofs.FunctionHead
import Carver.Split

/-!
# Exact extraction from sources made of functions

A split of a well-formed source by a plan of functions moves each listed function as it stands, and
leaves the rest as it stands, in whatever order the functions are listed (`split_text`). One
extraction is followed from the match, which is the first one and starts where the function does,
to the brace that closes the body; the text it leaves is the source without one more function, and
so the next extraction goes on from there (`take_function`).
-/

namespace Carver

/-! ## Bodies -/

namespace Braces

/-- The block of a balanced body ends with the brace behind the body. -/
theorem firstBlock_eq {front body : Text} (hfront : '{' ∉ front) (hbody : Balanced body)
    (rest : Text) :
    firstBlock (front ++ ('{' :: body ++ ['}']) ++ rest)
      = some (front, '{' :: body ++ ['}'], rest) := by
  have hclose : close 1 (body ++ '}' :: rest) = some (body ++ ['}'], rest) := by
    rw [close_append (fun front hfront => Nat.lt_succ_of_le (hbody.2 front hfront))
      (by rw [hbody.1])]
    rfl
  have htext : front ++ ('{' :: body ++ ['}']) ++ rest = front ++ '{' :: (body ++ '}' :: rest) := by
    simp
  rw [htext, firstBlock_append hfront, hclose]
  rfl

end Braces

namespace FunctionItem

theorem brace_not_mem_header {item : FunctionItem} (h : item.WellFormed) : '{' ∉ item.header := by
  have hlines := h.lines
  rw [List.forall_mem_append] at hlines
  have hdocs : '{' ∉ item.docs.flatMap docLine := by
    intro hmem
    obtain ⟨line, hline, hmem⟩ := List.mem_flatMap.1 hmem
    exact (hlines.1 line hline).2.1 (by simpa [docLine] using hmem)
  have hattributes : '{' ∉ item.attributes.flatMap attributeLine := by
    intro hmem
    obtain ⟨line, hline, hmem⟩ := List.mem_flatMap.1 hmem
    exact (hlines.2 line hline).2.1 (by simpa [attributeLine] using hmem)
  have hpub : '{' ∉ if item.isPublic then "pub ".toList else [] := by
    cases item.isPublic <;> decide
  have hname : '{' ∉ item.name.toList := Identifier.not_mem_of_isUsable h.name rfl
  have harrow : '{' ∉ item.arrow := by
    rw [arrow]
    cases hresult : item.result with
    | none => simp
    | some type =>
      have htype := (h.result type (by simp [hresult])).2.1
      simpa using htype
  simp only [header, front, signature, List.mem_append, List.mem_cons, not_or]
  exact ⟨⟨⟨⟨⟨hdocs, hattributes⟩, hpub⟩, by decide⟩, hname⟩,
    ⟨⟨by decide, h.params.2.1⟩, by decide, harrow⟩, by decide, by simp⟩

/-- A function is cut out from where it begins to the brace that closes its body. -/
theorem extractFrom?_eq {item : FunctionItem} (h : item.WellFormed) (above below : Text) :
    extractFrom? (above ++ (item.text ++ below)) (Text.size above)
      = some ⟨item.text, above ++ below⟩ := by
  have hblock : Braces.firstBlock (item.text ++ below) = some (item.header, item.block, below) :=
    Braces.firstBlock_eq (brace_not_mem_header h) h.body.1 below
  rw [extractFrom?_append, hblock]
  rfl

end FunctionItem

/-! ## Matches -/

/-- A name in front of a parenthesis is the name that is read there, if a blank or a bracket ends
that one. -/
theorem name_eq_of_paren {known name : String} (hknown : Identifier.isUsable known = true)
    (hname : '(' ∉ name.toList) {blanks rest tail : Text} {z : Char}
    (hblanks : ∀ c ∈ blanks, Text.isBlank c = true)
    (hz : Text.isBlank z = true ∨ z = '<' ∨ z = '(')
    (heq : blanks ++ (name.toList ++ z :: rest) = known.toList ++ '(' :: tail) : known = name := by
  obtain ⟨hne, hchars⟩ := Identifier.isTail_of_isUsable hknown
  obtain ⟨c, chars, hcons⟩ := List.exists_cons_of_ne_nil hne
  rcases blanks with _ | ⟨blank, blanks⟩
  · rw [List.nil_append] at heq
    rcases List.append_eq_append_iff.1 heq with ⟨mid, hmid, hrest⟩ | ⟨mid, hmid, hrest⟩
    · rcases mid with _ | ⟨y, mid⟩
      · rw [List.append_nil] at hmid
        exact String.toList_inj.1 hmid
      -- the name goes on where the match has a blank or a bracket
      · obtain ⟨rfl, -⟩ := List.cons.inj hrest
        have hy : Identifier.isTail z = true := hchars z (by simp [hmid])
        rcases hz with hz | rfl | rfl
        · rw [Identifier.isBlank_eq_false hy] at hz
          cases hz
        · exact absurd hy (by decide)
        · exact absurd hy (by decide)
    · rcases mid with _ | ⟨y, mid⟩
      · rw [List.append_nil] at hmid
        exact String.toList_inj.1 hmid.symm
      -- a longer name has the parenthesis behind the name of the function
      · have hparen : '(' = y := (List.cons.inj hrest).1
        rw [hmid, ← hparen] at hname
        exact absurd (by simp) hname
  · rw [hcons] at heq
    have hblank := hblanks blank (by simp)
    rw [(List.cons.inj heq).1,
      Identifier.isBlank_eq_false (hchars c (by simp [hcons]))] at hblank
    cases hblank

namespace FunctionSource

variable {source : FunctionSource} {taken : List String}

/-- A match in what is left of a source is in front of the keyword of a function that is left. -/
theorem exists_item_of_derives (h : source.WellFormed) {name : String} (hname : '(' ∉ name.toList)
    {u v : Text} (htext : source.without taken = u ++ v) {d : Cursor}
    (hmatch : Pattern.Derives (Shape.function name) ⟨u.reverse, v⟩ d) :
    ∃ before item gap after lines mods, source.rest = before ++ (item, gap) :: after ∧
      item.name = name ∧ name ∉ taken ∧ Shape.leading.Spells lines ∧
      (Pattern.all Shape.modifiers).Spells mods ∧
      u ++ (lines ++ mods) = source.above taken before ++ item.front := by
  obtain ⟨lines, mods, c, blanks, z, rest, hmatched, hlines, hmods, hc, hblanks, hz⟩ :=
    Shape.exists_parts_of_derives hmatch
  have hkeyword : source.without taken = (u ++ (lines ++ mods)) ++ 'f' :: 'n' :: c ::
      (blanks ++ (name.toList ++ z :: rest)) := by
    rw [htext, hmatched, List.append_assoc u]
  obtain ⟨before, item, gap, after, hrest, htaken, habove, hback⟩ :=
    exists_item_of_keyword h hc hkeyword
  have hitem := h.items (item, gap) (by simp [hrest])
  rw [List.append_assoc item.signature] at hback
  have heq := name_eq_of_paren hitem.name hname hblanks hz (List.cons.inj hback).2
  exact ⟨before, item, gap, after, lines, mods, hrest, heq, heq ▸ htaken, hlines, hmods, habove⟩

/-- A function that is left is found where it begins. -/
theorem exists_find?_without (h : source.WellFormed) (hguarded : source.Guarded)
    {before after : List (FunctionItem × Text)} {item : FunctionItem} {gap : Text}
    (hrest : source.rest = before ++ (item, gap) :: after) (htaken : item.name ∉ taken) :
    ∃ stop, (Shape.function item.name).find? (source.without taken)
      = some ⟨⟨(source.above taken before).reverse,
          item.text ++ (gap ++ after.flatMap (part taken))⟩, stop⟩ := by
  have hitem : item.WellFormed := h.items (item, gap) (by simp [hrest])
  have hparagraph : source.above taken before = [] ∨ _ := paragraph_above h hrest
  have hleft := without_eq_of_left hrest htaken
  obtain ⟨d, hmatch⟩ := FunctionItem.exists_derives_function hitem hparagraph
    (gap ++ after.flatMap (part taken))
  rw [hleft]
  refine Pattern.exists_find?_of_leftmost hmatch fun u v huv hv d hearlier => hv ?_
  have hparen : '(' ∉ item.name.toList := Identifier.not_mem_of_isUsable hitem.name rfl
  have htext : source.without taken
      = u ++ (v ++ (item.text ++ (gap ++ after.flatMap (part taken)))) := by
    rw [hleft, huv, List.append_assoc]
  obtain ⟨before', item', gap', after', lines, mods, hrest', hname, _, hlines, hmods, hfront⟩ :=
    exists_item_of_derives h hparen htext hearlier
  obtain ⟨rfl, rfl⟩ := eq_of_name_eq h hrest hrest' hname
  rw [huv, List.append_assoc] at hfront
  refine eq_nil_of_front hlines hmods ?_ (List.append_cancel_left hfront) hparagraph
    (endsItem_above h hrest) (closesPub_above h hguarded hrest)
  exact ⟨u, huv.symm⟩

/-! ## Extractions -/

/-- A function that is left is taken as it stands. -/
theorem extractFunction_of_mem (h : source.WellFormed) (hguarded : source.Guarded)
    {before after : List (FunctionItem × Text)} {item : FunctionItem} {gap : Text}
    (hrest : source.rest = before ++ (item, gap) :: after) (htaken : item.name ∉ taken) :
    extractFunction (source.without taken) item.name
      = .ok ⟨item.text, source.without (taken ++ [item.name])⟩ := by
  have hitem : item.WellFormed := h.items (item, gap) (by simp [hrest])
  obtain ⟨stop, hfind⟩ := exists_find?_without h hguarded hrest htaken
  have hlocate : locateFunction (source.without taken) item.name
      = some ⟨Text.size (source.above taken before), stop.offset⟩ := by
    rw [locateFunction, hfind, Option.map_some, Pattern.Hit.span, Cursor.offset, Text.size_reverse]
  rw [extractFunction, hlocate, without_append_name h hrest, without_eq_of_left hrest htaken]
  simp only [FunctionItem.extractFrom?_eq hitem]

/-- A name that no function that is left has is not found. -/
theorem extractFunction_of_not_mem (h : source.WellFormed) {name : String}
    (hname : '(' ∉ name.toList) (hmissing : ∀ pair ∈ source.rest, pair.1.name ≠ name) :
    extractFunction (source.without taken) name = .error (.notFound ⟨.function, name⟩) := by
  have hfind : (Shape.function name).find? (source.without taken) = none := by
    rw [Pattern.find?_eq_none_iff]
    intro c hc d hmatch
    obtain ⟨word, hahead, hbehind⟩ := Cursor.mem_onward_iff.1 hc
    obtain ⟨behind, ahead⟩ := c
    simp only [List.append_nil] at hahead hbehind
    rw [hbehind] at hmatch
    obtain ⟨before, item, gap, after, _, _, hrest, heq, _⟩ :=
      exists_item_of_derives h hname hahead hmatch
    exact hmissing (item, gap) (by simp [hrest]) heq
  rw [extractFunction, locateFunction, hfind, Option.map_none]

/-- What comes of a request for a function of the name. -/
def finding (source : FunctionSource) (name : String) : Finding :=
  match source.rest.find? (·.1.name == name) with
  | some (item, _) => .function name item.text
  | none => .miss (.notFound ⟨.function, name⟩)

/-- A request takes the function of its name, if there is one, out of what is left. -/
theorem take_function (h : source.WellFormed) (hguarded : source.Guarded) {name : String}
    (hname : '(' ∉ name.toList) (htaken : name ∉ taken) :
    Request.take (source.without taken) ⟨.function, name⟩
      = (source.finding name, source.without (taken ++ [name])) := by
  rw [Request.take, finding]
  cases hfind : source.rest.find? (·.1.name == name) with
  | none =>
    have hmissing : ∀ pair ∈ source.rest, pair.1.name ≠ name := by
      simpa using hfind
    have hsame : source.without (taken ++ [name]) = source.without taken := by
      refine without_congr fun pair hpair => ?_
      simp [hmissing pair hpair]
    simp only [extractFunction_of_not_mem h hname hmissing, hsame]
  | some pair =>
    obtain ⟨item, gap⟩ := pair
    obtain ⟨heq, before, after, hrest, _⟩ := List.find?_eq_some_iff_append.1 hfind
    have heq' : item.name = name := by simpa using heq
    subst heq'
    simp only [extractFunction_of_mem h hguarded hrest htaken]

/-- Requests one after the other take their functions. -/
theorem thread_take (h : source.WellFormed) (hguarded : source.Guarded) {names : List String}
    (hnames : ∀ name ∈ names, '(' ∉ name.toList) (hnodup : (taken ++ names).Nodup) :
    thread Request.take (source.without taken) (names.map (⟨.function, ·⟩))
      = (names.map source.finding, source.without (taken ++ names)) := by
  induction names generalizing taken with
  | nil => rw [List.append_nil]; rfl
  | cons name names ih =>
    rw [List.forall_mem_cons] at hnames
    have htaken : name ∉ taken := by
      intro hmem
      exact (List.nodup_append.1 hnodup).2.2 name hmem name (by simp) rfl
    have hnodup' : ((taken ++ [name]) ++ names).Nodup := by
      rwa [List.append_assoc]
    rw [List.map_cons, thread, take_function h hguarded hnames.1 htaken]
    simp only [ih hnames.2 hnodup']
    rw [List.append_assoc]
    rfl

/-! ## Plans -/

/-- The functions that a plan lists, in order. -/
def listed (plan : Plan) : List String :=
  plan.flatMap (·.functions)

/-- What a module of functions receives. -/
def share (source : FunctionSource) (entry : ModulePlan) : ModuleShare :=
  ⟨entry.name, entry.functions.map source.finding⟩

/-- The entries of a plan take the functions that they list. -/
theorem thread_takeModule (h : source.WellFormed) (hguarded : source.Guarded) {plan : Plan}
    (hstructs : ∀ entry ∈ plan, entry.structs = [])
    (hnames : ∀ name ∈ listed plan, '(' ∉ name.toList)
    (hnodup : (taken ++ listed plan).Nodup) :
    thread ModulePlan.take (source.without taken) plan
      = (plan.map source.share, source.without (taken ++ listed plan)) := by
  induction plan generalizing taken with
  | nil =>
    rw [listed, List.flatMap_nil, List.append_nil]
    rfl
  | cons entry plan ih =>
    have hlisted : listed (entry :: plan) = entry.functions ++ listed plan := List.flatMap_cons
    rw [List.forall_mem_cons] at hstructs
    rw [hlisted, List.forall_mem_append] at hnames
    rw [hlisted, ← List.append_assoc] at hnodup ⊢
    have hrequests : entry.requests = entry.functions.map (⟨.function, ·⟩) := by
      rw [ModulePlan.requests, hstructs.1, List.map_nil, List.append_nil]
    have hentry : ModulePlan.take (source.without taken) entry
        = (source.share entry, source.without (taken ++ entry.functions)) := by
      rw [ModulePlan.take, hrequests,
        thread_take h hguarded hnames.1 (List.nodup_append.1 hnodup).1]
      rfl
    rw [thread, hentry]
    simp only [ih hstructs.2 hnames.2 hnodup]
    rfl

/-- A split of a well-formed source takes each listed function as it stands, misses every other
listed name, and leaves the rest of the source as it stands, whatever the order of the list. -/
theorem split_text (h : source.WellFormed) (hguarded : source.Guarded) {plan : Plan}
    (hstructs : ∀ entry ∈ plan, entry.structs = []) (hnodup : (listed plan).Nodup)
    (hnames : ∀ name ∈ listed plan, '(' ∉ name.toList) :
    split source.text plan = ⟨plan.map source.share, source.without (listed plan)⟩ := by
  rw [text_eq_without, split, thread_takeModule h hguarded hstructs hnames
    (by rwa [List.nil_append]), List.nil_append]

/-- Functions with documentation, an attribute, `pub`, a result and nested braces, under a gap that
closes the parenthesis of its `pub`. -/
def sample : FunctionSource :=
  ⟨"pub (crate) use std::io;\n\n".toList,
    [(⟨[" first (of two)".toList], [], false, "a", "x: u8".toList, some "u8".toList,
        " if x > 1 { 2 } else { x } ".toList⟩, "\n\nstruct S;\n\n".toList),
      (⟨[], ["inline".toList], true, "ab", [], none, []⟩, "\n".toList)]⟩

/-- A plan that takes the functions of the sample out of order and asks for one that is missing. -/
def samplePlan : Plan :=
  [⟨"first", ["ab", "missing"], [], []⟩, ⟨"second", ["a"], [], []⟩]

theorem split_text_sample : sample.WellFormed ∧ sample.Guarded ∧
    split sample.text samplePlan
      = ⟨samplePlan.map sample.share, sample.without (listed samplePlan)⟩ :=
  have h : sample.WellFormed := by decide +kernel
  have hguarded : sample.Guarded := by decide +kernel
  ⟨h, hguarded, split_text h hguarded (by decide) (by decide +kernel) (by decide +kernel)⟩

/-- Every listed function of the source is taken as it stands. -/
def Exact (source : FunctionSource) (plan : Plan) : Prop :=
  ∀ pair ∈ source.rest, pair.1.name ∈ listed plan →
    .function pair.1.name pair.1.text ∈ (split source.text plan).modules.flatMap (·.findings)

instance (source : FunctionSource) (plan : Plan) : Decidable (source.Exact plan) :=
  inferInstanceAs (Decidable (∀ pair ∈ source.rest, _ → _))

/-- A parenthesis of `pub` that is open above a function, and closes in its documentation. -/
def openScope : FunctionSource :=
  ⟨"pub (;\n\n".toList, [(⟨[" x)".toList], [], false, "foo", [], none, []⟩, [])]⟩

/-- A function whose parameters begin with a parenthesis. -/
def openParams : FunctionSource :=
  ⟨[], [(⟨[], [], false, "foo", "(a, b".toList, none, []⟩, [])]⟩

/-- Without the two conditions the split is not exact: the parenthesis of a `pub` reaches from a gap
into a function, and a name with a parenthesis takes the function of another name. -/
theorem not_exact :
    (openScope.WellFormed ∧ ¬ openScope.Exact [⟨"m", ["foo"], [], []⟩]) ∧
      openParams.WellFormed ∧ openParams.Guarded ∧
        ¬ openParams.Exact [⟨"m", ["foo(", "foo"], [], []⟩] := by
  decide +kernel

end FunctionSource

end Carver
