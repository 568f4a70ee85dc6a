import Carver.Proofs.DeclaredLines
import Carver.Proofs.ExactExtraction
import Carver.Proofs.Misses

/-!
# Sources with declarations

Declarations of modules are put into a source as one piece, between two of its lines or at one of
its ends (`Module.exists_splices`). The piece holds no keyword of a function, and none comes about
or goes where it meets the source, so a keyword behind or in front of it is one of the source
(`exists_name_of_splices`). What was taken out of a source is therefore not found in it again
(`misses_declared`), and a second split by the same plan takes nothing (`split_declared`).
-/

namespace Carver

namespace Text

/-- There is no keyword in the text, and it does not end in part of one. -/
structure Inert (text : Text) : Prop where
  keyless : text.Keyless
  last : ∀ z ∈ text.getLast?, z ≠ 'f' ∧ z ≠ 'n'

theorem Inert.append {x y : Text} (hx : x.Inert) (hy : y.Inert) : (x ++ y).Inert := by
  refine ⟨fun a b c heq => ?_, forall_getLast?_append hx.last hy.last⟩
  by_contra hblank
  rw [Bool.not_eq_false] at hblank
  obtain ⟨a', _, hrest⟩ := hx.keyless.skip hx.last hblank heq
  rw [hy.keyless a' b c hrest] at hblank
  cases hblank

theorem inert_of_lacksFn {text : Text} (h : text.LacksFn)
    (hlast : text.getLast? ∉ [some 'f', some 'n']) : text.Inert := by
  refine ⟨h.keyless, fun z hz => ⟨?_, ?_⟩⟩
  · rintro rfl
    exact hlast (List.mem_cons.2 (.inl hz))
  · rintro rfl
    exact hlast (List.mem_cons_of_mem _ (List.mem_singleton.2 hz))

theorem inert_of_visible {text : Text} (h : ∀ c ∈ text, isBlank c = false)
    (hlast : ∀ z ∈ text.getLast?, z ≠ 'f' ∧ z ≠ 'n') : text.Inert :=
  ⟨keyless_of_visible h, hlast⟩

/-- The piece can be put between the two parts of a text without making or breaking a keyword: at
the start, behind a line feed, or, with a line feed first, at the end. -/
structure Splices (piece x y : Text) : Prop where
  inert : piece.Inert
  seam : x = [] ∨ (∃ front, x = front ++ ['\n']) ∨ y = [] ∧ ∃ rest, piece = '\n' :: rest

end Text

open Text (Inert Splices)

/-! ## Declarations -/

namespace Module

theorem inert_newline : Inert ['\n'] :=
  Text.inert_of_lacksFn (by decide) (by decide)

theorem inert_joinLines {lines : List String} (h : ∀ line ∈ lines, Inert line.toList) :
    Inert (joinLines lines) := by
  induction lines with
  | nil => exact Text.inert_of_lacksFn (by decide) (by decide)
  | cons line lines ih =>
    rw [List.forall_mem_cons] at h
    cases lines with
    | nil =>
      have hjoin : joinLines [line] = line.toList := by simp [joinLines]
      rw [hjoin]
      exact h.1
    | cons next lines =>
      have hjoin : joinLines (line :: next :: lines)
          = line.toList ++ (['\n'] ++ joinLines (next :: lines)) := by
        simp [joinLines, List.intercalate]
      rw [hjoin]
      exact h.1.append (inert_newline.append (ih h.2))

/-- A word, a usable name and punctuation. -/
theorem inert_line {name : String} (hname : Identifier.isUsable name = true) {word mark : Text}
    (hword : Inert word) (hmark : mark.any Text.isBlank = false)
    (hlast : mark.getLast? = some ';') : Inert (word ++ name.toList ++ mark) := by
  rw [List.append_assoc]
  refine hword.append (Text.inert_of_visible (List.forall_mem_append.2 ⟨?_, ?_⟩) ?_)
  · intro c hc
    exact Identifier.isBlank_eq_false ((Identifier.isTail_of_isUsable hname).2 c hc)
  · intro c hc
    exact Bool.eq_false_iff.2 (List.any_eq_false.1 hmark c hc)
  · rw [List.getLast?_append, hlast]
    simp

/-- The declarations and imports of modules with usable names. -/
theorem inert_block {modules : List String}
    (h : ∀ name ∈ modules, Identifier.isUsable name = true) : Inert (block modules) := by
  have hdeclarations : Inert (declarations modules) := by
    refine inert_joinLines fun line hline => ?_
    obtain ⟨name, hname, rfl⟩ := List.mem_map.1 hline
    rw [toList_declaration]
    exact inert_line (h name hname) (Text.inert_of_lacksFn (by decide) (by decide)) (by decide) rfl
  have himports : Inert (globImports modules) := by
    refine inert_joinLines fun line hline => ?_
    obtain ⟨name, hname, rfl⟩ := List.mem_map.1 hline
    rw [toList_globImport]
    exact inert_line (h name hname) (Text.inert_of_lacksFn (by decide) (by decide)) (by decide) rfl
  exact (hdeclarations.append (Text.inert_of_lacksFn (by decide) (by decide))).append himports

/-- Declarations are put into the text as one piece, whatever the anchor is. -/
theorem exists_splices {modules : List String}
    (h : ∀ name ∈ modules, Identifier.isUsable name = true) (text : Text) (anchor : String) :
    ∃ piece x y, text = x ++ y ∧ insertDeclarations text anchor modules = x ++ (piece ++ y) ∧
      Splices piece x y := by
  have hblock := inert_block h
  by_cases hne : modules = []
  · subst hne
    exact ⟨[], [], text, rfl, rfl, Text.inert_of_lacksFn (by decide) (by decide), .inl rfl⟩
  · rw [insertDeclarations_eq hne]
    rcases placement_cases text anchor with ⟨hplace, _⟩ |
      ⟨_, before, found, hfirst, ⟨hplace, _⟩ | ⟨line, after, hplace, rfl, _⟩⟩
    · simp only [hplace]
      exact ⟨block modules ++ ['\n', '\n'], [], text, rfl, rfl,
        hblock.append (Text.inert_of_lacksFn (by decide) (by decide)), .inl rfl⟩
    · simp only [hplace]
      refine ⟨['\n', '\n'] ++ block modules ++ ['\n'], text, [], by simp, by simp, ?_,
        .inr (.inr ⟨rfl, _, rfl⟩)⟩
      exact ((Text.inert_of_lacksFn (by decide) (by decide)).append hblock).append inert_newline
    · simp only [hplace]
      refine ⟨['\n'] ++ block modules ++ ['\n'], before ++ line ++ ['\n'], after, ?_, by simp,
        (inert_newline.append hblock).append inert_newline, .inr (.inl ⟨before ++ line, rfl⟩)⟩
      simp [hfirst.text_eq]

end Module

/-! ## Keywords of a source with declarations -/

namespace FunctionSource

variable {source : FunctionSource} {taken : List String}

/-- What is left of a source ends with a gap, and in front of it with an item or a paragraph. -/
theorem exists_last_gap (h : source.WellFormed) :
    ∃ front gap, source.without taken = front ++ gap ∧ gap.LacksFn ∧
      ∀ z ∈ front.getLast?, z = '\n' ∨ z = '}' := by
  rcases List.eq_nil_or_concat source.rest with hnil | ⟨before, ⟨item, gap⟩, hrest⟩
  · exact ⟨[], source.head, by simp [without, hnil], h.lacks _ (by simp [gaps]), by simp⟩
  · rw [List.concat_eq_append] at hrest
    have hgap : gap.LacksFn := h.lacks gap (by simp [gaps, hrest])
    have hwithout : source.without taken = source.above taken before ++ part taken (item, gap) := by
      rw [without_eq hrest, List.flatMap_nil, List.append_nil]
    rw [part] at hwithout
    split at hwithout
    · refine ⟨_, gap, hwithout, hgap, ?_⟩
      rcases @paragraph_above source taken _ _ _ _ h hrest with hnil | ⟨front, hfront⟩
      · simp [hnil]
      · simp [← hfront]
    · refine ⟨source.above taken before ++ item.text, gap, ?_, hgap, ?_⟩
      · rw [hwithout, List.append_assoc]
      have hbrace : item.block.getLast? = some '}' := List.getLast?_concat
      rw [FunctionItem.text, List.getLast?_append, List.getLast?_append, hbrace]
      simp

/-- What is left of a source does not end in the keyword of a function. -/
theorem without_ne_append_fn (h : source.WellFormed) (a : Text) :
    source.without taken ≠ a ++ ['f', 'n'] := by
  obtain ⟨front, gap, hwithout, hgap, hfront⟩ := @exists_last_gap source taken h
  intro heq
  rw [hwithout] at heq
  rcases List.append_eq_append_iff.1 heq with ⟨mid, rfl, hmid⟩ | ⟨mid, rfl, hmid⟩
  · exact hgap ⟨mid, [], by rw [hmid]; simp⟩
  · rcases List.eq_nil_or_concat mid with rfl | ⟨init, z, rfl⟩
    · rw [List.nil_append] at hmid
      exact hgap ⟨[], [], by rw [hmid]; simp⟩
    · have hz : z ∈ ['f', 'n'] := by simp [hmid]
      have hlast := hfront z (by simp)
      simp only [List.mem_cons, List.not_mem_nil, or_false] at hz
      rcases hz with rfl | rfl <;> rcases hlast with hlast | hlast <;> cases hlast

/-- A keyword in what is left, with the name of a function that is left and a parenthesis. -/
theorem exists_name_of_keyword (h : source.WellFormed) {a b : Text} {c : Char}
    (hc : Text.isBlank c = true) (heq : source.without taken = a ++ 'f' :: 'n' :: c :: b) :
    c = ' ' ∧ ∃ name tail, Identifier.isUsable name = true ∧ name ∉ taken ∧
      b = name.toList ++ '(' :: tail := by
  obtain ⟨before, item, gap, after, hrest, htaken, _, hback⟩ := exists_item_of_keyword h hc heq
  have hitem := h.items (item, gap) (by simp [hrest])
  exact ⟨(List.cons.inj hback).1, item.name, _, hitem.name, htaken, (List.cons.inj hback).2⟩

/-- A line feed does not cut a name or the parenthesis behind it off. -/
theorem exists_tail_of_name {name : String} (hname : Identifier.isUsable name = true)
    {x y tail : Text} (hx : y = [] ∨ ∃ front, x = front ++ ['\n'])
    (heq : x ++ y = name.toList ++ '(' :: tail) : ∃ tail', x = name.toList ++ '(' :: tail' := by
  rcases hx with rfl | ⟨front, rfl⟩
  · exact ⟨tail, by rw [← heq, List.append_nil]⟩
  · have hbreak : '\n' ∉ name.toList := Identifier.not_mem_of_isUsable hname rfl
    rcases List.append_eq_append_iff.1 heq with ⟨mid, hmid, _⟩ | ⟨mid, hmid, hrest⟩
    · rw [hmid] at hbreak
      exact absurd (by simp) hbreak
    · rcases mid with _ | ⟨p, mid⟩
      · rw [List.append_nil] at hmid
        rw [← hmid] at hbreak
        exact absurd (by simp) hbreak
      · obtain ⟨rfl, _⟩ := List.cons.inj hrest
        exact ⟨mid, hmid⟩

/-- A keyword in what is left with a piece put into it is one of what is left. -/
theorem exists_name_of_splices (h : source.WellFormed) {piece x y : Text}
    (htext : source.without taken = x ++ y) (hpiece : Splices piece x y) {a b : Text} {c : Char}
    (hc : Text.isBlank c = true) (heq : x ++ (piece ++ y) = a ++ 'f' :: 'n' :: c :: b) :
    ∃ name tail, Identifier.isUsable name = true ∧ name ∉ taken ∧
      b = name.toList ++ '(' :: tail := by
  rcases List.append_eq_append_iff.1 heq with ⟨a', rfl, hbehind⟩ | ⟨mid, hx, hmid⟩
  -- the keyword lies behind the first part, so it lies behind the piece
  · obtain ⟨a'', rfl, hy⟩ := hpiece.inert.keyless.skip hpiece.inert.last hc hbehind
    rw [hy, ← List.append_assoc] at htext
    exact (exists_name_of_keyword h hc htext).2
  · rcases mid with _ | ⟨p, _ | ⟨q, _ | ⟨r, mid⟩⟩⟩
    · obtain ⟨a'', _, hy⟩ := hpiece.inert.keyless.skip (b := b) (a := []) hpiece.inert.last hc
        hmid.symm
      rw [hy, ← List.append_assoc] at htext
      exact (exists_name_of_keyword h hc htext).2
    -- a part of the keyword ends the first part
    · obtain ⟨rfl, hmid⟩ := List.cons.inj hmid
      rcases hpiece.seam with rfl | ⟨front, rfl⟩ | ⟨rfl, rest, rfl⟩
      · simp at hx
      · have hlast := (List.append_inj' hx rfl).2
        cases hlast
      · cases hmid
    · simp only [List.cons_append, List.nil_append, List.cons.injEq] at hmid
      obtain ⟨rfl, rfl, hmid⟩ := hmid
      rcases hpiece.seam with rfl | ⟨front, rfl⟩ | ⟨rfl, rest, rfl⟩
      · simp at hx
      · have hlast := congrArg List.getLast? hx
        simp at hlast
      · rw [List.append_nil, hx] at htext
        exact absurd htext (without_ne_append_fn h a)
    -- the first part holds the keyword, and with it the name
    · simp only [List.cons_append, List.cons.injEq] at hmid
      obtain ⟨rfl, rfl, rfl, rfl⟩ := hmid
      have hkeyword : source.without taken = a ++ 'f' :: 'n' :: c :: (mid ++ y) := by
        rw [htext, hx]
        simp
      obtain ⟨rfl, name, tail, hname, htaken, hback⟩ := exists_name_of_keyword h hc hkeyword
      have hseam : y = [] ∨ ∃ front, mid = front ++ ['\n'] := by
        rcases hpiece.seam with rfl | ⟨front, rfl⟩ | ⟨rfl, _⟩
        · simp at hx
        · rcases List.eq_nil_or_concat mid with rfl | ⟨init, z, rfl⟩
          · have hlast := congrArg List.getLast? hx
            simp at hlast
          · have hsame : front ++ ['\n'] = (a ++ 'f' :: 'n' :: ' ' :: init) ++ [z] := by
              rw [hx]
              simp
            have hlast := (List.append_inj' hsame rfl).2
            cases hlast
            exact .inr ⟨init, by rw [List.concat_eq_append]⟩
        · exact .inl rfl
      obtain ⟨tail', rfl⟩ := exists_tail_of_name hname hseam hback
      exact ⟨name, _, hname, htaken, by rw [List.append_assoc, List.cons_append]⟩

/-- What was taken is not found again, wherever declarations of modules are put. -/
theorem misses_declared (h : source.WellFormed) {modules : List String}
    (hmodules : ∀ name ∈ modules, Identifier.isUsable name = true) {name : String}
    (hname : '(' ∉ name.toList) (htaken : name ∈ taken) (anchor : String) :
    Request.Misses (Module.insertDeclarations (source.without taken) anchor modules)
      ⟨.function, name⟩ := by
  obtain ⟨piece, x, y, htext, hdeclared, hpiece⟩ :=
    Module.exists_splices hmodules (source.without taken) anchor
  have hfind : (Shape.function name).find? (x ++ (piece ++ y)) = none := by
    rw [Pattern.find?_eq_none_iff]
    intro c hc d hmatch
    obtain ⟨u, hahead, _⟩ := Cursor.mem_onward_iff.1 hc
    obtain ⟨behind, ahead⟩ := c
    obtain ⟨lines, mods, c, blanks, z, rest, rfl, _, _, hc, hblanks, hz⟩ :=
      Shape.exists_parts_of_derives hmatch
    have hkeyword : x ++ (piece ++ y) = (u ++ (lines ++ mods)) ++ 'f' :: 'n' :: c ::
        (blanks ++ (name.toList ++ z :: rest)) := by
      simp only at hahead
      rw [hahead, List.append_assoc u]
    obtain ⟨known, tail, hknown, hleft, hback⟩ :=
      exists_name_of_splices h htext hpiece hc hkeyword
    rw [name_eq_of_paren hknown hname hblanks hz hback] at hleft
    exact hleft htaken
  have hextract : extractFunction (x ++ (piece ++ y)) name
      = .error (.notFound ⟨.function, name⟩) := by
    rw [extractFunction, locateFunction, hfind, Option.map_none]
  rw [hdeclared, Request.Misses, Request.take]
  simp only [hextract]

/-! ## Splits of a source with declarations -/

/-- A request leaves the source without the function of its name, taken before or not. -/
theorem take_function_remaining (h : source.WellFormed) (hguarded : source.Guarded) {name : String}
    (hname : '(' ∉ name.toList) :
    (Request.take (source.without taken) ⟨.function, name⟩).2
      = source.without (taken ++ [name]) := by
  by_cases htaken : name ∈ taken
  · have hmisses : Request.Misses (source.without taken) ⟨.function, name⟩ :=
      misses_declared h (List.forall_mem_nil _) hname htaken ""
    rw [hmisses]
    refine without_congr fun pair _ => ?_
    simp only [List.mem_append, List.mem_singleton]
    exact ⟨.inl, fun hmem => hmem.elim id (· ▸ htaken)⟩
  · rw [take_function h hguarded hname htaken]

/-- If every step takes some names, the steps take all of them. -/
theorem snd_thread_without {α β : Type} {step : Text → α → β × Text} {names : α → List String}
    {steps : List α}
    (h : ∀ a ∈ steps, ∀ taken,
      (step (source.without taken) a).2 = source.without (taken ++ names a)) :
    (thread step (source.without taken) steps).2
      = source.without (taken ++ steps.flatMap names) := by
  induction steps generalizing taken with
  | nil => rw [List.flatMap_nil, List.append_nil]; rfl
  | cons a rest ih =>
    rw [List.forall_mem_cons] at h
    show (thread step (step (source.without taken) a).2 rest).2 = _
    rw [h.1, ih h.2, List.flatMap_cons, List.append_assoc]

/-- A split leaves the source without the listed functions, also if some are listed more than
once. -/
theorem remaining_split (h : source.WellFormed) (hguarded : source.Guarded) {plan : Plan}
    (hstructs : ∀ entry ∈ plan, entry.structs = [])
    (hnames : ∀ name ∈ listed plan, '(' ∉ name.toList) :
    (split source.text plan).remaining = source.without (listed plan) := by
  rw [text_eq_without, listed, ← List.nil_append (plan.flatMap _)]
  refine snd_thread_without fun entry hentry taken => ?_
  have hrequests : entry.requests = entry.functions.map (⟨.function, ·⟩) := by
    rw [ModulePlan.requests, hstructs entry hentry, List.map_nil, List.append_nil]
  have hfunctions : entry.functions = entry.requests.flatMap fun request => [request.name] := by
    rw [hrequests, List.flatMap_map, List.flatMap_singleton']
  rw [hfunctions]
  refine snd_thread_without fun request hrequest taken => ?_
  rw [hrequests] at hrequest
  obtain ⟨name, hname, rfl⟩ := List.mem_map.1 hrequest
  exact take_function_remaining h hguarded
    (hnames name (List.mem_flatMap.2 ⟨entry, hentry, hname⟩))

/-- A second split by the plan finds nothing, wherever declarations of modules are put into what the
first one left. -/
theorem split_declared (h : source.WellFormed) (hguarded : source.Guarded) {plan : Plan}
    (hstructs : ∀ entry ∈ plan, entry.structs = [])
    (hnames : ∀ name ∈ listed plan, '(' ∉ name.toList) {modules : List String}
    (hmodules : ∀ name ∈ modules, Identifier.isUsable name = true) (anchor : String) :
    split (Module.insertDeclarations (split source.text plan).remaining anchor modules) plan
      = ⟨plan.map (·.missed),
        Module.insertDeclarations (split source.text plan).remaining anchor modules⟩ := by
  rw [remaining_split h hguarded hstructs hnames]
  refine split_of_misses fun entry hentry request hrequest => ?_
  rw [ModulePlan.requests, hstructs entry hentry, List.map_nil, List.append_nil] at hrequest
  obtain ⟨name, hname, rfl⟩ := List.mem_map.1 hrequest
  have hlisted : name ∈ listed plan := List.mem_flatMap.2 ⟨entry, hentry, hname⟩
  exact misses_declared h hmodules (hnames name hlisted) hlisted anchor

end FunctionSource

end Carver
