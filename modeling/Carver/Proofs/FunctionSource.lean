import Carver.Definition.Braces
import Carver.Definition.Shape
import Carver.Proofs.Names
import Carver.Proofs.Seams
import Carver.Proofs.Spelling
import Mathlib.Data.List.Basic

/-!
# Sources made of functions

A source is a row of functions with gaps between them. `FunctionSource.WellFormed` bounds what may
stand where; with it, `fn` in front of a blank is a keyword of one of the functions
(`exists_item_of_keyword`), also after some of the functions were taken out. The gaps end above a
function with a blank line, so that nothing of a gap reads as the front of the function below.
-/

namespace Carver

namespace Text

/-- There are neither braces nor `fn` in the text. -/
def IsPlain (text : Text) : Prop :=
  '{' ∉ text ∧ '}' ∉ text ∧ text.LacksFn

instance (text : Text) : Decidable text.IsPlain :=
  inferInstanceAs (Decidable (_ ∧ _))

end Text

/-- As many braces close as open, and at no place have more of them closed than opened. -/
def Braces.Balanced (text : Text) : Prop :=
  text.count '}' = text.count '{' ∧ ∀ front, front <+: text → front.count '}' ≤ front.count '{'

instance (text : Text) : Decidable (Braces.Balanced text) :=
  decidable_of_iff (text.count '}' = text.count '{' ∧ ∀ n ≤ text.length,
      (text.take n).count '}' ≤ (text.take n).count '{') <| by
    refine and_congr_right fun _ => ?_
    constructor
    · rintro h front ⟨back, rfl⟩
      have hfront := h front.length (by simp)
      rwa [List.take_left] at hfront
    · intro h n _
      exact h _ (List.take_prefix n text)

/-! ## Functions -/

/-- The words that may stand between `pub`, or its scope, and `fn`. -/
def Shape.qualifiers : List Pattern :=
  [qualifier "const", qualifier "async", qualifier "unsafe"]

/-- The parts of a function: the texts of its documentation and attribute lines, whether it is
public, its name, its parameters, its result type and its body. -/
structure FunctionItem where
  docs : List Text
  attributes : List Text
  isPublic : Bool
  name : String
  params : Text
  result : Option Text
  body : Text
  deriving DecidableEq, Repr

namespace FunctionItem

/-- A line of documentation. -/
def docLine (text : Text) : Text :=
  "///".toList ++ text ++ ['\n']

/-- A line with an attribute. -/
def attributeLine (text : Text) : Text :=
  "#[".toList ++ text ++ "]\n".toList

/-- What stands in front of `fn`. -/
def front (item : FunctionItem) : Text :=
  item.docs.flatMap docLine ++ item.attributes.flatMap attributeLine
    ++ if item.isPublic then "pub ".toList else []

/-- The result type as it is written. -/
def arrow (item : FunctionItem) : Text :=
  item.result.elim [] fun type => " -> ".toList ++ type

/-- What stands between the name and the body. -/
def signature (item : FunctionItem) : Text :=
  '(' :: item.params ++ ')' :: item.arrow ++ [' ']

/-- What stands in front of the body. -/
def header (item : FunctionItem) : Text :=
  item.front ++ "fn ".toList ++ item.name.toList ++ item.signature

/-- The body in braces. -/
def block (item : FunctionItem) : Text :=
  '{' :: item.body ++ ['}']

/-- The text of the function. -/
def text (item : FunctionItem) : Text :=
  item.header ++ item.block

/-- No line has a line feed, no part but the body has a brace, no part has `fn`, and the name is
usable. -/
structure WellFormed (item : FunctionItem) : Prop where
  lines : ∀ line ∈ item.docs ++ item.attributes, '\n' ∉ line ∧ line.IsPlain
  name : Identifier.isUsable item.name = true
  params : ')' ∉ item.params ∧ item.params.IsPlain
  result : ∀ type ∈ item.result.toList, type ≠ [] ∧ type.IsPlain
  body : Braces.Balanced item.body ∧ item.body.LacksFn

instance (item : FunctionItem) : Decidable item.WellFormed :=
  decidable_of_iff
    ((∀ line ∈ item.docs ++ item.attributes, '\n' ∉ line ∧ line.IsPlain) ∧
      Identifier.isUsable item.name = true ∧ (')' ∉ item.params ∧ item.params.IsPlain) ∧
      (∀ type ∈ item.result.toList, type ≠ [] ∧ type.IsPlain) ∧
      Braces.Balanced item.body ∧ item.body.LacksFn)
    ⟨fun ⟨hlines, hname, hparams, hresult, hbody⟩ => ⟨hlines, hname, hparams, hresult, hbody⟩,
      fun h => ⟨h.lines, h.name, h.params, h.result, h.body⟩⟩

theorem text_eq (item : FunctionItem) : item.text = item.front ++ ('f' :: 'n' :: ' ' ::
    (item.name.toList ++ ['(']) ++ (item.params ++ ')' :: item.arrow ++ ' ' :: item.block)) := by
  simp [text, header, signature]

theorem getLast?_docLine (line : Text) : (docLine line).getLast? = some '\n' :=
  List.getLast?_concat

theorem getLast?_attributeLine (line : Text) : (attributeLine line).getLast? = some '\n' := by
  rw [attributeLine, List.getLast?_append]
  rfl

/-- What stands in front of `fn` ends in a line feed or a blank. -/
theorem getLast?_front (item : FunctionItem) :
    ∀ z ∈ item.front.getLast?, z = '\n' ∨ z = ' ' := by
  rw [front]
  refine Text.forall_getLast?_append (Text.forall_getLast?_append ?_ ?_) ?_
  · refine Text.forall_getLast?_flatMap fun line _ z hz => ?_
    rw [getLast?_docLine, Option.mem_some] at hz
    exact .inl hz.symm
  · refine Text.forall_getLast?_flatMap fun line _ z hz => ?_
    rw [getLast?_attributeLine, Option.mem_some] at hz
    exact .inl hz.symm
  · cases item.isPublic with
    | false => simp
    | true => exact fun z hz => .inr (Option.mem_some.1 hz).symm

theorem lacksFn_front {item : FunctionItem} (h : item.WellFormed) : item.front.LacksFn := by
  have hlines := h.lines
  rw [List.forall_mem_append] at hlines
  have hdocs : Text.LacksFn (item.docs.flatMap docLine) := by
    refine Text.lacksFn_flatMap (fun line hline => ?_) (fun line _ => by simp [getLast?_docLine])
    refine Text.lacksFn_append ?_ (by decide) (.inr (by decide))
    exact Text.lacksFn_append (by decide) (hlines.1 line hline).2.2.2 (.inl (by simp))
  have hattributes : Text.LacksFn (item.attributes.flatMap attributeLine) := by
    refine Text.lacksFn_flatMap (fun line hline => ?_)
      (fun line _ => by simp [getLast?_attributeLine])
    refine Text.lacksFn_append ?_ (by decide) (.inr (by decide))
    exact Text.lacksFn_append (by decide) (hlines.2 line hline).2.2.2 (.inl (by simp))
  have hlast : ∀ z ∈ (item.docs.flatMap docLine).getLast?, z ≠ 'f' :=
    Text.forall_getLast?_flatMap fun line _ => by simp [getLast?_docLine]
  rw [front]
  refine Text.lacksFn_append (Text.lacksFn_append hdocs hattributes (.inl hlast)) ?_ (.inr ?_)
  · cases item.isPublic <;> decide
  · cases item.isPublic <;> decide

/-- What stands behind the name has no `fn`. -/
theorem lacksFn_back {item : FunctionItem} (h : item.WellFormed) :
    Text.LacksFn (item.params ++ ')' :: item.arrow ++ ' ' :: item.block) := by
  have harrow : item.arrow.LacksFn := by
    rw [arrow]
    cases hresult : item.result with
    | none => decide
    | some type =>
      have htype := h.result type (by simp [hresult])
      exact Text.lacksFn_append (by decide) htype.2.2.2 (.inl (by simp))
  have hblock : Text.LacksFn ([' ', '{'] ++ item.body ++ ['}']) := by
    refine Text.lacksFn_append ?_ (by decide) (.inr (by decide))
    exact Text.lacksFn_append (by decide) h.body.2 (.inl (by simp))
  have hparams : Text.LacksFn (item.params ++ [')']) :=
    Text.lacksFn_append h.params.2.2.2 (by decide) (.inr (by decide))
  have hparamsArrow : Text.LacksFn (item.params ++ [')'] ++ item.arrow) :=
    Text.lacksFn_append hparams harrow (.inl (by simp))
  have hall := Text.lacksFn_append hparamsArrow hblock (.inr (by simp))
  simpa [block] using hall

theorem isBlank_name {item : FunctionItem} (h : item.WellFormed) :
    ∀ c ∈ item.name.toList, Text.isBlank c = false := fun c hc =>
  Identifier.isBlank_eq_false ((Identifier.isTail_of_isUsable h.name).2 c hc)

/-- A keyword is that of the function, or lies behind the function. -/
theorem keyword_cases {item : FunctionItem} (h : item.WellFormed) {y a b : Text} {c : Char}
    (hc : Text.isBlank c = true) (heq : item.text ++ y = a ++ 'f' :: 'n' :: c :: b) :
    a = item.front ∧ c :: b = ' ' :: (item.name.toList ++ (item.signature ++ item.block ++ y)) ∨
      ∃ a', a = item.text ++ a' ∧ y = a' ++ 'f' :: 'n' :: c :: b := by
  rw [text_eq, List.append_assoc] at heq
  have hfront : ∀ z ∈ item.front.getLast?, z ≠ 'f' ∧ z ≠ 'n' := by
    intro z hz
    rcases item.getLast?_front z hz with rfl | rfl <;> decide
  obtain ⟨a₁, ha₁, hfn⟩ := (lacksFn_front h).keyless.skip hfront hc heq
  rcases a₁ with _ | ⟨p, a₂⟩
  -- the keyword of the function
  · left
    simp only [List.cons_append, List.nil_append, List.cons.injEq, true_and] at hfn
    refine ⟨by rw [ha₁, List.append_nil], ?_⟩
    rw [← hfn.1, ← hfn.2]
    simp [signature]
  -- a later one, which lies behind the name and behind what follows it
  · right
    simp only [List.cons_append, List.cons.injEq] at hfn
    obtain ⟨rfl, hfn⟩ := hfn
    have hblank : Text.Keyless ['n', ' '] := Text.LacksFn.keyless (by decide)
    obtain ⟨a₃, rfl, hname⟩ := hblank.skip (by simp) hc hfn
    have hvisible : Text.Keyless (item.name.toList ++ ['(']) := by
      refine Text.keyless_of_visible ?_
      rw [List.forall_mem_append]
      exact ⟨isBlank_name h, List.forall_mem_singleton.2 rfl⟩
    obtain ⟨a₄, rfl, hback⟩ := hvisible.skip (by simp) hc
      ((List.append_assoc _ _ _).symm.trans hname)
    have hlast : ∀ z ∈ (item.params ++ ')' :: item.arrow ++ ' ' :: item.block).getLast?,
        z ≠ 'f' ∧ z ≠ 'n' := by
      simp [block, List.getLast?_append, List.getLast?_cons]
    obtain ⟨a₅, rfl, hy⟩ := (lacksFn_back h).keyless.skip hlast hc hback
    refine ⟨a₅, ?_, hy⟩
    rw [ha₁, text_eq]
    simp

theorem endsItem_text (item : FunctionItem) : item.text.endsItem = true := by
  have htext : item.text = item.header ++ '{' :: item.body ++ ['}'] := by simp [text, block]
  rw [htext, Text.endsItem, List.reverse_append]
  rfl

/-- Whether the scope of a `pub` that opens above could close in the documentation: behind the first
closing parenthesis there is white space, and then `const`, `async` and `unsafe` at most. -/
def isExposed (item : FunctionItem) : Bool :=
  item.attributes.isEmpty && !item.isPublic &&
    item.front.behindParen?.any (Pattern.all (Shape.gap :: Shape.qualifiers)).takes

end FunctionItem

/-! ## Sources -/

/-- A gap, and then functions, each with the gap behind it. -/
structure FunctionSource where
  head : Text
  rest : List (FunctionItem × Text)
  deriving DecidableEq, Repr

namespace FunctionSource

/-- A function and the gap behind it, or the gap alone if the function is among those taken out. -/
def part (taken : List String) (pair : FunctionItem × Text) : Text :=
  if pair.1.name ∈ taken then pair.2 else pair.1.text ++ pair.2

/-- The text that is left without the named functions. -/
def without (source : FunctionSource) (taken : List String) : Text :=
  source.head ++ source.rest.flatMap (part taken)

/-- The whole text. -/
def text (source : FunctionSource) : Text :=
  source.head ++ source.rest.flatMap fun (item, gap) => item.text ++ gap

/-- The gaps in order. -/
def gaps (source : FunctionSource) : List Text :=
  source.head :: source.rest.map (·.2)

/-- The functions have names of their own, no gap has `fn`, and each gap above a function ends an
item and then a paragraph; only the first one may be empty. -/
structure WellFormed (source : FunctionSource) : Prop where
  items : ∀ pair ∈ source.rest, pair.1.WellFormed
  names : (source.rest.map (·.1.name)).Nodup
  lacks : ∀ gap ∈ source.gaps, gap.LacksFn
  ends : ∀ gap ∈ source.gaps.dropLast, gap.endsItem = true
  paragraph : ∀ gap ∈ source.gaps.tail.dropLast, ['\n', '\n'] <:+ gap
  first : source.rest ≠ [] → source.head = [] ∨ ['\n', '\n'] <:+ source.head

instance (source : FunctionSource) : Decidable source.WellFormed :=
  decidable_of_iff
    ((∀ pair ∈ source.rest, pair.1.WellFormed) ∧ (source.rest.map (·.1.name)).Nodup ∧
      (∀ gap ∈ source.gaps, gap.LacksFn) ∧ (∀ gap ∈ source.gaps.dropLast, gap.endsItem = true) ∧
      (∀ gap ∈ source.gaps.tail.dropLast, ['\n', '\n'] <:+ gap) ∧
      (source.rest ≠ [] → source.head = [] ∨ ['\n', '\n'] <:+ source.head))
    ⟨fun ⟨hitems, hnames, hlacks, hends, hparagraph, hfirst⟩ =>
        ⟨hitems, hnames, hlacks, hends, hparagraph, hfirst⟩,
      fun h => ⟨h.items, h.names, h.lacks, h.ends, h.paragraph, h.first⟩⟩

/-- Above a function in whose documentation the scope of a `pub` could close, no gap and no function
leaves the parenthesis of a `pub` open. -/
def Guarded (source : FunctionSource) : Prop :=
  ∀ i : Fin source.rest.length, (source.rest.get i).1.isExposed = true →
    ∀ piece ∈ source.head :: (source.rest.take i).flatMap fun (item, gap) => [item.text, gap],
      piece.ClosesPub

instance (source : FunctionSource) : Decidable source.Guarded :=
  inferInstanceAs (Decidable (∀ _ : Fin source.rest.length, _))

theorem text_eq_without (source : FunctionSource) : source.text = source.without [] := by
  rw [text, without]
  congr 2

/-- A gap that ends a paragraph, or the text, has no keyword and no part of one. -/
theorem skip_gap {gap rest a b : Text} {c : Char} (hgap : gap.LacksFn)
    (hend : rest = [] ∨ ['\n', '\n'] <:+ gap) (hc : Text.isBlank c = true)
    (heq : gap ++ rest = a ++ 'f' :: 'n' :: c :: b) :
    ∃ a', a = gap ++ a' ∧ rest = a' ++ 'f' :: 'n' :: c :: b := by
  rcases hend with rfl | ⟨front, rfl⟩
  · rw [List.append_nil] at heq
    rw [hgap.keyless a b c heq] at hc
    cases hc
  · exact hgap.keyless.skip (by simp [List.getLast?_append]) hc heq

/-- A keyword is that of the function, if it is left, or lies behind the function and its gap. -/
theorem keyword_cases {taken : List String} {item : FunctionItem} {gap rest a b : Text} {c : Char}
    (hitem : item.WellFormed) (hgap : gap.LacksFn) (hend : rest = [] ∨ ['\n', '\n'] <:+ gap)
    (hc : Text.isBlank c = true)
    (heq : part taken (item, gap) ++ rest = a ++ 'f' :: 'n' :: c :: b) :
    item.name ∉ taken ∧ a = item.front ∧
        c :: b = ' ' :: (item.name.toList ++ (item.signature ++ item.block ++ (gap ++ rest))) ∨
      ∃ a', a = part taken (item, gap) ++ a' ∧ rest = a' ++ 'f' :: 'n' :: c :: b := by
  by_cases hname : item.name ∈ taken
  · have hpart : part taken (item, gap) = gap := if_pos hname
    rw [hpart] at heq ⊢
    exact .inr (skip_gap hgap hend hc heq)
  · have hpart : part taken (item, gap) = item.text ++ gap := if_neg hname
    rw [hpart, List.append_assoc] at heq
    rcases FunctionItem.keyword_cases hitem hc heq with ⟨ha, hb⟩ | ⟨a₁, rfl, hlater⟩
    · exact .inl ⟨hname, ha, hb⟩
    · obtain ⟨a₂, rfl, hrest⟩ := skip_gap hgap hend hc hlater
      exact .inr ⟨a₂, by rw [hpart, List.append_assoc], hrest⟩

/-- A keyword among functions and gaps is that of one of the functions that are left. -/
theorem exists_item_of_keyword_flatMap {taken : List String} {pairs : List (FunctionItem × Text)}
    (hitems : ∀ pair ∈ pairs, pair.1.WellFormed) (hlacks : ∀ pair ∈ pairs, pair.2.LacksFn)
    (hends : ∀ gap ∈ (pairs.map (·.2)).dropLast, ['\n', '\n'] <:+ gap) {a b : Text} {c : Char}
    (hc : Text.isBlank c = true)
    (heq : pairs.flatMap (part taken) = a ++ 'f' :: 'n' :: c :: b) :
    ∃ before item gap after, pairs = before ++ (item, gap) :: after ∧ item.name ∉ taken ∧
      a = before.flatMap (part taken) ++ item.front ∧
      c :: b = ' ' :: (item.name.toList ++ (item.signature ++ item.block
        ++ (gap ++ after.flatMap (part taken)))) := by
  induction pairs generalizing a with
  | nil => simp at heq
  | cons pair pairs ih =>
    obtain ⟨item, gap⟩ := pair
    rw [List.forall_mem_cons] at hitems hlacks
    rw [List.flatMap_cons] at heq
    have hend : pairs.flatMap (part taken) = [] ∨ ['\n', '\n'] <:+ gap := by
      cases pairs with
      | nil => exact .inl rfl
      | cons pair pairs => exact .inr (hends gap (by simp))
    have hends' : ∀ gap ∈ (pairs.map (·.2)).dropLast, ['\n', '\n'] <:+ gap := by
      intro other hother
      refine hends other ?_
      cases pairs with
      | nil => simp at hother
      | cons pair pairs => exact List.mem_cons_of_mem _ hother
    rcases keyword_cases hitems.1 hlacks.1 hend hc heq with ⟨htaken, ha, hb⟩ | ⟨a', rfl, hrest⟩
    · exact ⟨[], item, gap, pairs, rfl, htaken, ha, hb⟩
    · obtain ⟨before, other, last, after, rfl, htaken, rfl, hb⟩ :=
        ih hitems.2 hlacks.2 hends' hrest
      refine ⟨(item, gap) :: before, other, last, after, rfl, htaken, ?_, hb⟩
      rw [List.flatMap_cons, List.append_assoc]

/-- What is left above a function. -/
def above (source : FunctionSource) (taken : List String)
    (before : List (FunctionItem × Text)) : Text :=
  source.head ++ before.flatMap (part taken)

section

variable {source : FunctionSource} {taken : List String} {before after : List (FunctionItem × Text)}
  {item : FunctionItem} {gap : Text}

theorem without_eq (hrest : source.rest = before ++ (item, gap) :: after) :
    source.without taken = source.above taken before ++ (part taken (item, gap)
      ++ after.flatMap (part taken)) := by
  rw [without, above, hrest, List.flatMap_append, List.flatMap_cons, List.append_assoc]

/-- Around a function that is left stands what is left above and below it. -/
theorem without_eq_of_left (hrest : source.rest = before ++ (item, gap) :: after)
    (htaken : item.name ∉ taken) :
    source.without taken = source.above taken before
      ++ (item.text ++ (gap ++ after.flatMap (part taken))) := by
  rw [without_eq hrest, part, if_neg htaken, List.append_assoc]

/-- No other function has the name of a function. -/
theorem name_ne_of_mem (h : source.WellFormed)
    (hrest : source.rest = before ++ (item, gap) :: after) :
    (∀ pair ∈ before, pair.1.name ≠ item.name) ∧ ∀ pair ∈ after, pair.1.name ≠ item.name := by
  have hnames := h.names
  rw [hrest, List.map_append, List.map_cons, List.nodup_append, List.nodup_cons] at hnames
  obtain ⟨_, ⟨hafter, _⟩, hbefore⟩ := hnames
  refine ⟨fun pair hpair => ?_, fun pair hpair heq => ?_⟩
  · exact hbefore _ (List.mem_map_of_mem hpair) _ (by simp)
  · exact hafter (heq ▸ List.mem_map_of_mem hpair)

theorem eq_of_name_eq (h : source.WellFormed)
    {before' after' : List (FunctionItem × Text)} {item' : FunctionItem} {gap' : Text}
    (hrest : source.rest = before ++ (item, gap) :: after)
    (hrest' : source.rest = before' ++ (item', gap') :: after') (hname : item'.name = item.name) :
    before' = before ∧ item' = item := by
  rcases List.append_eq_append_iff.1 (hrest.symm.trans hrest') with
    ⟨mid, rfl, hmid⟩ | ⟨mid, rfl, hmid⟩
  · rcases mid with _ | ⟨pair, mid⟩
    · simp only [List.nil_append, List.cons.injEq, Prod.mk.injEq] at hmid
      exact ⟨List.append_nil _, hmid.1.1.symm⟩
    · have hmem : (item', gap') ∈ after := by simp [(List.cons.inj hmid).2]
      exact absurd hname ((name_ne_of_mem h hrest).2 _ hmem)
  · rcases mid with _ | ⟨pair, mid⟩
    · simp only [List.nil_append, List.cons.injEq, Prod.mk.injEq] at hmid
      exact ⟨(List.append_nil _).symm, hmid.1.1⟩
    · have hmem : (item, gap) ∈ after' := by simp [(List.cons.inj hmid).2]
      exact absurd hname.symm ((name_ne_of_mem h hrest').2 _ hmem)

/-- Without one more function, what is left above and below it meets. -/
theorem without_append_name (h : source.WellFormed)
    (hrest : source.rest = before ++ (item, gap) :: after) :
    source.without (taken ++ [item.name]) = source.above taken before
      ++ (gap ++ after.flatMap (part taken)) := by
  obtain ⟨hbefore, hafter⟩ := name_ne_of_mem h hrest
  have hpart : ∀ pair : FunctionItem × Text, pair.1.name ≠ item.name →
      part (taken ++ [item.name]) pair = part taken pair := by
    intro pair hne
    simp [part, hne]
  rw [without_eq hrest, part, if_pos (by simp), above, above,
    List.flatMap_congr fun pair hpair => hpart pair (hbefore pair hpair),
    List.flatMap_congr fun pair hpair => hpart pair (hafter pair hpair)]

/-- What is left depends on the set of names alone. -/
theorem without_congr {taken' : List String}
    (h : ∀ pair ∈ source.rest, pair.1.name ∈ taken ↔ pair.1.name ∈ taken') :
    source.without taken = source.without taken' := by
  rw [without, without]
  congr 1
  refine List.flatMap_congr fun pair hpair => ?_
  simp only [part, h pair hpair]

/-- A keyword in what is left is that of one of the functions that are left. -/
theorem exists_item_of_keyword (h : source.WellFormed) {a b : Text} {c : Char}
    (hc : Text.isBlank c = true) (heq : source.without taken = a ++ 'f' :: 'n' :: c :: b) :
    ∃ before item gap after, source.rest = before ++ (item, gap) :: after ∧ item.name ∉ taken ∧
      a = source.above taken before ++ item.front ∧
      c :: b = ' ' :: (item.name.toList ++ (item.signature ++ item.block
        ++ (gap ++ after.flatMap (part taken)))) := by
  have hlacks : source.head.LacksFn ∧ ∀ pair ∈ source.rest, pair.2.LacksFn := by
    have hall := h.lacks
    rw [gaps, List.forall_mem_cons] at hall
    exact ⟨hall.1, fun pair hpair => hall.2 _ (List.mem_map_of_mem hpair)⟩
  have hskip : ∃ a', a = source.head ++ a' ∧
      source.rest.flatMap (part taken) = a' ++ 'f' :: 'n' :: c :: b := by
    by_cases hempty : source.rest = []
    · exact skip_gap hlacks.1 (.inl (by simp [hempty])) hc heq
    · rcases h.first hempty with hhead | hhead
      · rw [without, hhead] at heq
        exact ⟨a, by simp [hhead], heq⟩
      · exact skip_gap hlacks.1 (.inr hhead) hc heq
  obtain ⟨a', rfl, hkeyword⟩ := hskip
  obtain ⟨before, item, gap, after, hrest, htaken, rfl, hb⟩ :=
    exists_item_of_keyword_flatMap h.items hlacks.2 h.paragraph hc hkeyword
  exact ⟨before, item, gap, after, hrest, htaken, by rw [above, List.append_assoc], hb⟩

/-- The gaps above a function are not the last one. -/
theorem mem_dropLast_gaps (hrest : source.rest = before ++ (item, gap) :: after) :
    source.head ∈ source.gaps.dropLast ∧
      ∀ pair ∈ before, pair.2 ∈ source.gaps.tail.dropLast ∧ pair.2 ∈ source.gaps.dropLast := by
  have htail : source.gaps.tail.dropLast
      = before.map (·.2) ++ ((item, gap) :: after |>.map (·.2)).dropLast := by
    rw [gaps, List.tail_cons, hrest, List.map_append, List.dropLast_append_of_ne_nil (by simp)]
  have hall : source.gaps.dropLast = source.head :: source.gaps.tail.dropLast := by
    rw [gaps, hrest]
    simp [List.dropLast_cons_of_ne_nil]
  rw [hall, htail]
  refine ⟨by simp, fun pair hpair => ?_⟩
  have hmem : pair.2 ∈ before.map (·.2) := List.mem_map_of_mem hpair
  exact ⟨List.mem_append_left _ hmem, List.mem_cons_of_mem _ (List.mem_append_left _ hmem)⟩

theorem endsItem_part {pair : FunctionItem × Text} (hgap : pair.2.endsItem = true) :
    (part taken pair).endsItem = true := by
  rw [part]
  split
  · exact hgap
  · exact Text.endsItem_append pair.1.endsItem_text hgap

/-- What is left above a function ends an item. -/
theorem endsItem_above (h : source.WellFormed)
    (hrest : source.rest = before ++ (item, gap) :: after) :
    (source.above taken before).endsItem = true := by
  obtain ⟨hhead, hgaps⟩ := mem_dropLast_gaps hrest
  refine Text.endsItem_append (h.ends _ hhead) (Text.endsItem_flatMap fun pair hpair => ?_)
  exact endsItem_part (h.ends _ (hgaps pair hpair).2)

/-- What is left above a function is nothing, or ends a paragraph. -/
theorem paragraph_above (h : source.WellFormed)
    (hrest : source.rest = before ++ (item, gap) :: after) :
    source.above taken before = [] ∨ ['\n', '\n'] <:+ source.above taken before := by
  rcases List.eq_nil_or_concat before with rfl | ⟨front, pair, rfl⟩
  · rw [above, List.flatMap_nil, List.append_nil]
    exact h.first (by simp [hrest])
  · right
    have hgap := h.paragraph _ ((mem_dropLast_gaps hrest).2 pair (by simp)).1
    have hpart : pair.2 <:+ part taken pair := by
      rw [part]
      split
      · exact List.suffix_refl _
      · exact List.suffix_append _ _
    rw [above, List.concat_eq_append, List.flatMap_append, List.flatMap_singleton,
      ← List.append_assoc]
    exact (hgap.trans hpart).trans (List.suffix_append _ _)

/-- What is left above a function in whose documentation the scope of a `pub` could close leaves no
parenthesis of a `pub` open. -/
theorem closesPub_above (h : source.WellFormed) (hguarded : source.Guarded)
    (hrest : source.rest = before ++ (item, gap) :: after) (hexposed : item.isExposed = true) :
    (source.above taken before).ClosesPub := by
  have hlength : before.length < source.rest.length := by simp [hrest]
  have hpieces := hguarded ⟨before.length, hlength⟩ (by simpa [hrest] using hexposed)
  simp only [hrest, List.take_left, List.forall_mem_cons] at hpieces
  obtain ⟨hhead, hgaps⟩ := mem_dropLast_gaps hrest
  refine Text.closesPub_append hpieces.1 (h.ends _ hhead) ?_
  refine Text.closesPub_flatMap fun pair hpair => ?_
  have hgap := h.ends _ (hgaps pair hpair).2
  have hclosed : pair.1.text.ClosesPub ∧ pair.2.ClosesPub := by
    refine ⟨hpieces.2 _ ?_, hpieces.2 _ ?_⟩
    · exact List.mem_flatMap.2 ⟨pair, hpair, by simp⟩
    · exact List.mem_flatMap.2 ⟨pair, hpair, by simp⟩
  refine ⟨?_, endsItem_part hgap⟩
  rw [part]
  split
  · exact hclosed.2
  · exact Text.closesPub_append hclosed.1 pair.1.endsItem_text hclosed.2

end

end FunctionSource

end Carver
