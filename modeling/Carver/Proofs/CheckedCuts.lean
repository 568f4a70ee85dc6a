import Carver.Proofs.DeclaredLines
import Carver.Proofs.FittingSpans
import Carver.Split

/-!
# Every cut fits

Cutting a text at byte offsets rounds to whole characters, so it always has a result. Here each
operation on texts is followed once more, with offsets that are computed as they come and with cuts
that have no result where a span does not fit its text (`Checked`). Each of these operations has a
result, and it is the one of the operation without checks. So no cut is ever rounded, whatever the
text and the names are: neither in a single extraction nor in the texts that a whole split hands on
from one extraction to the next (`Checked.cuts_fit`).

Impl blocks are cut out back to front, by spans that were found in the text as it was before. A span
still fits by its turn, because all that is gone by then lay behind it.
-/

namespace Carver

namespace Text

/-! ## First occurrences -/

/-- Offset of the first occurrence of the word. -/
def offsetOf? (word text : Text) : Option Nat :=
  (splitAtWord word text).map (size ·.1)

theorem splitAtWord_singleton {c : Char} {front : Text} (hfront : c ∉ front) (rest : Text) :
    splitAtWord [c] (front ++ c :: rest) = some (front, c :: rest) := by
  induction front with
  | nil => simp [splitAtWord]
  | cons d front ih =>
    rw [List.mem_cons, not_or] at hfront
    have hnot : ¬ [c].isPrefixOf (d :: (front ++ c :: rest)) = true := by
      simpa using hfront.1
    rw [List.cons_append, splitAtWord, if_neg hnot, ih hfront.2]
    rfl

theorem FirstOccurs.offsetOf?_eq {word text before found : Text}
    (h : FirstOccurs word text before found) : offsetOf? word text = some (size before) := by
  cases hsplit : splitAtWord word text with
  | none =>
    obtain ⟨rest, rfl⟩ := h.isPrefix
    refine absurd ⟨before, rest, ?_⟩ (splitAtWord_eq_none_iff.1 hsplit)
    rw [h.text_eq, List.append_assoc]
  | some parts =>
    obtain ⟨before', found'⟩ := parts
    have hfirst := firstOccurs_of_splitAtWord hsplit
    have hle := hfirst.size_le before found h.text_eq h.isPrefix
    have hge := h.size_le before' found' hfirst.text_eq hfirst.isPrefix
    rw [offsetOf?, hsplit, Option.map_some, Nat.le_antisymm hle hge]

theorem offsetOf?_singleton {c : Char} {front : Text} (hfront : c ∉ front) (rest : Text) :
    offsetOf? [c] (front ++ c :: rest) = some (size front) := by
  rw [offsetOf?, splitAtWord_singleton hfront, Option.map_some]

theorem offsetOf?_singleton_eq_none {c : Char} {text : Text} (h : c ∉ text) :
    offsetOf? [c] text = none := by
  rw [offsetOf?, Option.map_eq_none_iff, splitAtWord_eq_none_iff]
  rintro ⟨front, rest, rfl⟩
  simp at h

end Text

namespace Checked

/-! ## Functions -/

/-- The end of the first block at or after `start`, counted byte by byte from its opening brace on.
There is no answer at all if that brace lies behind the last byte or the count goes wrong. -/
def balancedEnd (text : Text) (start : Nat) : Option (Option Nat) :=
  match (text.dropBytes? start).bind (Text.offsetOf? ['{']) with
  | none => some none
  | some ahead =>
    if start + ahead ≤ text.bytes.length then
      Braces.countFrom (start + ahead) 0 (text.bytes.drop (start + ahead))
    else none

/-- The bytes from `start` to the end of the first block after it, and the text they hold. -/
def matchBlock (text : Text) (start : Nat) : Option (Option (Span × Text)) := do
  match ← balancedEnd text start with
  | none => return none
  | some stop => return some (⟨start, stop⟩, ← text.slice? ⟨start, stop⟩)

/-- Cuts out the text from `start` to the end of the first block after it. -/
def extractFrom (text : Text) (start : Nat) : Option (Option Extraction) := do
  match ← matchBlock text start with
  | none => return none
  | some (span, piece) => return some ⟨piece, ← text.joinAround? span⟩

/-- Cuts out the named function. -/
def extractFunction (text : Text) (name : String) : Option (Except Miss Extraction) :=
  match locateFunction text name with
  | none => some (.error (.notFound ⟨.function, name⟩))
  | some head => do
    match ← extractFrom text head.start with
    | none => return .error (.truncated ⟨.function, name⟩)
    | some extraction => return .ok extraction

theorem balancedEnd_eq_some (text : Text) (start : Nat) :
    balancedEnd text start = some (Braces.balancedEnd text start) := by
  by_cases hopening : ∃ opening, Braces.FirstOpening text start opening
  · obtain ⟨opening, hopening⟩ := hopening
    have hcount := hopening.countFrom_eq
    obtain ⟨before, front, rest, rfl, rfl, rfl, hfront⟩ := hopening.exists_append
    have hle : Text.size (before ++ front) ≤ (before ++ (front ++ '{' :: rest)).bytes.length := by
      rw [Text.length_bytes, ← List.append_assoc, Text.size_append _ ('{' :: rest)]
      exact Nat.le_add_right _ _
    rw [balancedEnd, Text.dropBytes?_size_append, Option.bind_some,
      Text.offsetOf?_singleton hfront]
    dsimp only
    rw [← Text.size_append, if_pos hle, hcount]
  · have hnone : (text.dropBytes? start).bind (Text.offsetOf? ['{']) = none := by
      rw [Braces.exists_firstOpening_iff, not_and] at hopening
      rw [Text.dropBytes?]
      split
      · rename_i hstart
        exact Text.offsetOf?_singleton_eq_none (hopening hstart)
      · rfl
    rw [balancedEnd, hnone, Braces.balancedEnd_eq_none_of_not hopening]

theorem matchBlock_eq_some (text : Text) (start : Nat) :
    matchBlock text start
      = some ((blockSpan? text start).map fun span => (span, text.slice span)) := by
  rw [matchBlock, balancedEnd_eq_some, blockSpan?]
  cases hend : Braces.balancedEnd text start with
  | none => rfl
  | some stop =>
    have hfits : text.Fits ⟨start, stop⟩ := (Braces.balancedEnd_eq_some_iff.1 hend).fits
    simp [hfits.slice?_eq]

theorem extractFrom_eq_some (text : Text) (start : Nat) :
    extractFrom text start = some (extractFrom? text start) := by
  rw [extractFrom, matchBlock_eq_some, extractFrom?, blockSpan?]
  cases hend : Braces.balancedEnd text start with
  | none => rfl
  | some stop =>
    have hfits : text.Fits ⟨start, stop⟩ := (Braces.balancedEnd_eq_some_iff.1 hend).fits
    simp [hfits.joinAround?_eq]

theorem extractFunction_eq_some (text : Text) (name : String) :
    extractFunction text name = some (Carver.extractFunction text name) := by
  rw [extractFunction, Carver.extractFunction]
  cases locateFunction text name with
  | none => rfl
  | some head =>
    dsimp only
    rw [extractFrom_eq_some]
    cases extractFrom? text head.start <;> rfl

/-! ## Structs -/

/-- The bytes of an impl block: those of its match without the blanks that end the last line. -/
def implSpan (text : Text) (hit : Pattern.Hit) : Option Span := do
  let word ← text.slice? hit.span
  return ⟨hit.start.offset, hit.start.offset + Text.size (Text.trimEndBy isLineTail word)⟩

/-- Bytes of the inherent impl blocks in order. -/
def locateImpls (text : Text) (name : String) : Option (List Span) :=
  ((Shape.impl name).findAll text).mapM (implSpan text)

/-- The text after the spans were cut out, the last one first, and what was cut out, in the order of
the list. -/
def cutBackwards (text : Text) : List Span → Option (List Text × Text)
  | [] => some ([], text)
  | span :: later => do
    let (pieces, rest) ← cutBackwards text later
    let piece ← rest.slice? span
    return (piece :: pieces, ← rest.cutOut? span)

/-- The struct, if there is one, and the text without it. -/
def cutDefinition (text : Text) (name : String) : Option (Option Text × Text) :=
  match locateStruct text name with
  | none => some (none, text)
  | some span => do
    let definition ← text.slice? span
    return (some definition, ← text.joinAround? span)

/-- Cuts out the named struct and its impl blocks; a name with neither is not found. -/
def extractStruct (text : Text) (name : String) : Option (Except Miss StructExtraction) := do
  let (definition, left) ← cutDefinition text name
  let (impls, remaining) ← cutBackwards left (← locateImpls left name)
  let cut : StructExtraction := ⟨definition, impls, remaining⟩
  return if cut.blocks.isEmpty then .error (.notFound ⟨.struct, name⟩) else .ok cut

/-- Going back over the end of a passed word leads to the end of the trimmed word, unless nothing of
it is left. -/
theorem offset_retreat {drops : Char → Bool} {c d : Cursor} {word : Text} (h : c.Passes word d)
    {x : Char} (hmem : x ∈ word) (hx : drops x = false) :
    (d.retreat drops).offset = c.offset + Text.size (Text.trimEndBy drops word) := by
  have hstop : (word.reverse.dropWhile drops).isEmpty = false := by
    rw [List.isEmpty_eq_false_iff, Ne, List.dropWhile_eq_nil_iff]
    intro hall
    rw [hall x (List.mem_reverse.2 hmem)] at hx
    cases hx
  rw [Cursor.retreat, Cursor.offset, Cursor.offset, h.2, List.dropWhile_append, hstop,
    if_neg Bool.false_ne_true, Text.size_append, Text.trimEndBy, Text.size_reverse, Nat.add_comm]

theorem brace_mem_of_spells_impl {name : String} {word : Text}
    (h : (Shape.impl name).Spells word) : '{' ∈ word := by
  simp only [Shape.impl, Pattern.spells_all_cons, Pattern.spells_char] at h
  obtain ⟨_, _, rfl, -, _, _, rfl, -, _, _, rfl, -, _, _, rfl, -, _, _, rfl, -, _, _, rfl, -,
    _, _, rfl, -, _, _, rfl, -, _, _, rfl, rfl, -⟩ := h
  simp

theorem implSpan_eq_some {text : Text} {name : String} {hit : Pattern.Hit}
    (h : hit ∈ (Shape.impl name).findAll text) :
    implSpan text hit = some (Carver.implSpan hit) := by
  obtain ⟨hstart, hderives⟩ := Pattern.derives_of_mem_findAll h
  have hfits := Pattern.fits_of_derives hstart hderives
  obtain ⟨before, word, after, rfl, hword, hpass, hspan⟩ :=
    Pattern.exists_append_of_derives hstart hderives
  have hslice : (before ++ word ++ after).slice hit.span = word := by
    rw [hspan, Text.slice_append]
  rw [Carver.implSpan, offset_retreat hpass (brace_mem_of_spells_impl hword) rfl, implSpan,
    hfits.slice?_eq, hslice]
  rfl

theorem locateImpls_eq_some (text : Text) (name : String) :
    locateImpls text name = some (Carver.locateImpls text name) := by
  have hspans : ∀ hits : List Pattern.Hit, (∀ hit ∈ hits, hit ∈ (Shape.impl name).findAll text) →
      hits.mapM (implSpan text) = some (hits.map Carver.implSpan) := by
    intro hits hmem
    induction hits with
    | nil => rfl
    | cons hit later ih =>
      rw [List.forall_mem_cons] at hmem
      rw [List.mapM_cons, implSpan_eq_some hmem.1, ih hmem.2]
      rfl
  exact hspans _ fun _ hhit => hhit

/-- Ascending spans still fit by their turn. -/
theorem cutBackwards_eq_some {text : Text} {spans : List Span} (h : Laid text spans)
    (hascending : spans.Pairwise fun span next => span.stop ≤ next.start) :
    cutBackwards text spans = some (spans.map text.slice, text.without spans) := by
  rw [← h.cutBackwards?_eq hascending]
  induction spans with
  | nil => rw [cutBackwards, Text.cutBackwards?]
  | cons span later ih =>
    obtain ⟨hfirst, hlater⟩ := List.pairwise_cons.1 hascending
    -- by its turn nothing up to the end of the span is gone
    have hfits := h.fits_without hfirst
    have herase : (text.without later).erase? span = some ((text.without later).erase span) := by
      rw [← Text.joinAround?_eq_erase?, hfits.joinAround?_eq]
    rw [cutBackwards, Text.cutBackwards?, ih h.tail hlater, h.tail.cutBackwards?_eq hlater]
    simp [hfits.slice?_eq, hfits.cutOut?_eq, herase]

theorem cutDefinition_eq_some (text : Text) (name : String) :
    cutDefinition text name
      = some ((locateStruct text name).map text.slice, structless text name) := by
  rw [cutDefinition, structless_eq]
  cases hspan : locateStruct text name with
  | none => rfl
  | some span =>
    have hfits := Pattern.fits_of_find? hspan
    simp [hfits.slice?_eq, hfits.joinAround?_eq]

theorem extractStruct_eq_some (text : Text) (name : String) :
    extractStruct text name = some (Carver.extractStruct text name) := by
  have hcut := cutBackwards_eq_some (laid_locateImpls (structless text name) name)
    (marks_locateImpls (structless text name) name).pairwise
  rw [extractStruct, cutDefinition_eq_some, Carver.extractStruct, cutStruct_eq]
  simp [locateImpls_eq_some, hcut]

/-! ## Declarations -/

/-- Offset of the first occurrence of the anchor, unless it is empty. -/
def anchorOffset? (text : Text) (anchor : String) : Option Nat :=
  if anchor.toList.isEmpty then none else Text.offsetOf? anchor.toList text

/-- The text with the declarations and imports of the modules, below the line of the anchor if there
is one. -/
def insertDeclarations (text : Text) (anchor : String) (modules : List String) : Option Text :=
  if modules.isEmpty then some text
  else
    let block := Module.block modules
    match anchorOffset? text anchor with
    | none => some (block ++ ['\n', '\n'] ++ text)
    | some place => do
      let found ← text.dropBytes? place
      match Text.offsetOf? ['\n'] found with
      | none => return text ++ ['\n', '\n'] ++ block ++ ['\n']
      | some line =>
        let front ← text.takeBytes? (place + line + 1)
        let back ← text.dropBytes? (place + line + 1)
        return front ++ ['\n'] ++ block ++ ['\n'] ++ back

theorem insertDeclarations_eq_some (text : Text) (anchor : String) (modules : List String) :
    insertDeclarations text anchor modules
      = some (Module.insertDeclarations text anchor modules) := by
  rw [insertDeclarations]
  split
  · rename_i hempty
    rw [Module.insertDeclarations, if_pos hempty]
  rename_i hne
  rw [Module.insertDeclarations_eq (by simpa using hne)]
  rcases Module.placement_cases text anchor with ⟨hplace, habsent⟩ |
    ⟨hanchor, before, found, hfirst, hlines⟩
  · have hnone : anchorOffset? text anchor = none := by
      rw [anchorOffset?]
      rcases habsent with rfl | habsent
      · rfl
      · rw [Text.offsetOf?, Text.splitAtWord_eq_none_iff.2 habsent, Option.map_none, ite_self]
    simp only [hnone, hplace]
  · have hsome : anchorOffset? text anchor = some (Text.size before) := by
      rw [anchorOffset?, if_neg (by simpa using hanchor), hfirst.offsetOf?_eq]
    obtain rfl := hfirst.text_eq
    rcases hlines with ⟨hplace, hfound⟩ | ⟨line, after, hplace, rfl, hline⟩
    · simp [hsome, hplace, Text.dropBytes?_size_append, Text.offsetOf?_singleton_eq_none hfound]
    · -- the line ends one byte behind the start of its line feed
      have hend : Text.size before + Text.size line + 1
          = Text.size (before ++ (line ++ ['\n'])) := by
        simp only [Text.size_append, Nat.add_assoc]
        rfl
      have htext : before ++ (line ++ '\n' :: after) = before ++ (line ++ ['\n']) ++ after := by
        simp
      simp only [hsome, hplace, Text.dropBytes?_size_append, Option.bind_eq_bind, Option.bind_some,
        Text.offsetOf?_singleton hline, hend]
      rw [htext, Text.takeBytes?_size_append, Text.dropBytes?_size_append]
      rfl

/-! ## Splits -/

/-- Applies `step` to each element in turn, handing the text along. -/
def thread {α β : Type} (step : Text → α → Option (β × Text)) (text : Text) :
    List α → Option (List β × Text)
  | [] => some ([], text)
  | a :: rest => do
    let (b, left) ← step text a
    let (bs, last) ← thread step left rest
    return (b :: bs, last)

/-- Tries one request; gives the finding and the text that is left. -/
def take (text : Text) (request : Request) : Option (Finding × Text) :=
  match request.kind with
  | .function => do
    match ← extractFunction text request.name with
    | .ok e => return (.function request.name e.text, e.remaining)
    | .error reason => return (.miss reason, text)
  | .struct => do
    match ← extractStruct text request.name with
    | .ok e => return (.struct request.name e.definition e.impls, e.remaining)
    | .error reason => return (.miss reason, text)

/-- Tries the requests of one entry of the plan. -/
def takeEntry (text : Text) (entry : ModulePlan) : Option (ModuleShare × Text) := do
  let (findings, left) ← thread take text entry.requests
  return (⟨entry.name, findings⟩, left)

/-- Tries every request of the plan, module by module. -/
def split (text : Text) (plan : Plan) : Option Split := do
  let (modules, remaining) ← thread takeEntry text plan
  return ⟨modules, remaining⟩

/-- If every step has a result, so have all the steps together. -/
theorem thread_eq_some {α β : Type} {checked : Text → α → Option (β × Text)}
    {step : Text → α → β × Text} (hstep : ∀ text a, checked text a = some (step text a))
    (text : Text) (steps : List α) :
    thread checked text steps = some (Carver.thread step text steps) := by
  induction steps generalizing text with
  | nil => rfl
  | cons a rest ih =>
    rw [thread, Carver.thread, hstep]
    simp [ih]

theorem take_eq_some (text : Text) (request : Request) :
    take text request = some (request.take text) := by
  obtain ⟨kind, name⟩ := request
  cases kind with
  | function =>
    simp only [take, Request.take, extractFunction_eq_some]
    cases Carver.extractFunction text name <;> rfl
  | struct =>
    simp only [take, Request.take, extractStruct_eq_some]
    cases Carver.extractStruct text name <;> rfl

theorem takeEntry_eq_some (text : Text) (entry : ModulePlan) :
    takeEntry text entry = some (entry.take text) := by
  rw [takeEntry, thread_eq_some take_eq_some, ModulePlan.take]
  rfl

theorem split_eq_some (text : Text) (plan : Plan) :
    split text plan = some (Carver.split text plan) := by
  rw [split, thread_eq_some takeEntry_eq_some, Carver.split]
  rfl

/-! ## All cuts -/

/-- Every offset that is given out lies in the text and not inside a character, and every located
span is in order. An impl span also fits the text that is left by its turn, when the spans behind it
are gone. With every cut checked each operation has a result, and it is the one without checks. What
stands around a span can be joined unless the span has more bytes than the text, or an end of it
lies behind the end of the text or inside a character. -/
theorem cuts_fit (text : Text) :
    (∀ request start, locate text request = some start →
      start ≤ Text.size text ∧ ¬ text.InsideChar start) ∧
    (∀ name span, locateStruct text name = some span → text.Fits span) ∧
    (∀ name, ∀ span ∈ Carver.locateImpls text name, text.Fits span) ∧
    (∀ start stop, Braces.balancedEnd text start = some stop → text.Fits ⟨start, stop⟩) ∧
    (∀ name earlier span later, Carver.locateImpls text name = earlier ++ span :: later →
      ∃ pieces left, cutBackwards text later = some (pieces, left) ∧ left.Fits span) ∧
    (∀ start,
      balancedEnd text start = some (Braces.balancedEnd text start) ∧
      matchBlock text start
        = some ((blockSpan? text start).map fun span => (span, text.slice span)) ∧
      extractFrom text start = some (extractFrom? text start)) ∧
    (∀ name,
      locateImpls text name = some (Carver.locateImpls text name) ∧
      extractFunction text name = some (Carver.extractFunction text name) ∧
      extractStruct text name = some (Carver.extractStruct text name)) ∧
    (∀ anchor modules, insertDeclarations text anchor modules
      = some (Module.insertDeclarations text anchor modules)) ∧
    (∀ plan, split text plan = some (Carver.split text plan)) ∧
    ∀ span,
      text.joinAround? span = text.erase? span ∧
      (text.joinAround? span = none ↔
        Text.size text < span.stop - span.start ∨ Text.size text < span.start ∨
          Text.size text < span.stop ∨ text.InsideChar span.start ∨
          text.InsideChar span.stop) := by
  refine ⟨fun request start hstart => Text.isBoundary_iff.1 (isBoundary_of_locate hstart),
    fun name span => Pattern.fits_of_find?, fun name => (laid_locateImpls text name).fits,
    fun start stop hstop => (Braces.balancedEnd_eq_some_iff.1 hstop).fits, ?_,
    fun start => ⟨balancedEnd_eq_some text start, matchBlock_eq_some text start,
      extractFrom_eq_some text start⟩,
    fun name => ⟨locateImpls_eq_some text name, extractFunction_eq_some text name,
      extractStruct_eq_some text name⟩,
    insertDeclarations_eq_some text, split_eq_some text,
    fun span => ⟨Text.joinAround?_eq_erase? text span, Text.joinAround?_eq_none_iff⟩⟩
  intro name earlier span later hspans
  have hlaid := laid_locateImpls text name
  have hascending := (marks_locateImpls text name).pairwise
  rw [hspans] at hlaid hascending
  obtain ⟨-, hascending, -⟩ := List.pairwise_append.1 hascending
  obtain ⟨hfirst, hlater⟩ := List.pairwise_cons.1 hascending
  exact ⟨_, _, cutBackwards_eq_some hlaid.of_append.tail hlater,
    hlaid.of_append.fits_without hfirst⟩

/-- A struct and two impl blocks, with characters of several bytes in them and directly around
them. -/
def dottedSource : Text :=
  "…struct N \x7bé\x7d…impl N \x7b\né\n\x7d\n…impl N \x7b\n\x7d\n".toList

/-- The first impl block fits what is left when the second one is gone, but not the other way
round. -/
theorem cuts_fit_dottedSource :
    locateStruct dottedSource "N" = some ⟨3, 16⟩ ∧ dottedSource.Fits ⟨3, 16⟩ ∧
    Carver.locateImpls dottedSource "N" = [⟨19, 32⟩, ⟨36, 46⟩] ∧
    (∃ pieces left, cutBackwards dottedSource [⟨36, 46⟩] = some (pieces, left) ∧
      left.Fits ⟨19, 32⟩) ∧
    cutBackwards dottedSource [⟨36, 46⟩, ⟨19, 32⟩] = none ∧
    extractStruct dottedSource "N" = some (Carver.extractStruct dottedSource "N") := by
  have hstruct : locateStruct dottedSource "N" = some ⟨3, 16⟩ := by decide +kernel
  have himpls : Carver.locateImpls dottedSource "N" = [⟨19, 32⟩, ⟨36, 46⟩] := by decide +kernel
  obtain ⟨-, hfits, -, -, hturn, -, hnames, -⟩ := cuts_fit dottedSource
  exact ⟨hstruct, hfits "N" _ hstruct, himpls, hturn "N" [] _ _ himpls,
    by decide +kernel, (hnames "N").2.2⟩

end Checked

end Carver
