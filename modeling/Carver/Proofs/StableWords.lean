import Carver.Proofs.ExactLocation
import Carver.Proofs.ImplBlocks
import Carver.Proofs.LineBreaks

/-!
# Words that do not depend on line endings

A pattern is stable if it has a word exactly if it has the word with carriage returns. Sequences are
stable if their parts are, provided that no line break can fall apart at a seam (`stable_cons`).
Between runs of white space it can; there the words may have carriage returns put in and left out
anywhere (`Fluid`), which carries over to sequences without a condition.

An item is stable together with the text before it, and it neither begins nor ends inside a line
break, so the first one of a text is the first one of the text with carriage returns
(`Steady.isFirst_crlf`).
-/

namespace Carver

open Text (crlf lf Begins)

namespace Pattern

/-- The pattern has a word exactly if it has the word with carriage returns. -/
def Stable (p : Pattern) : Prop :=
  ∀ word, '\r' ∉ word → (p.Spells (crlf word) ↔ p.Spells word)

/-- Carriage returns may be put in front of line feeds and left out wherever they are. -/
structure Fluid (p : Pattern) : Prop where
  strip : ∀ word, p.Spells word → p.Spells (lf word)
  double : ∀ word, '\r' ∉ word → p.Spells word → p.Spells (crlf word)

/-- No word begins with a line feed. -/
def NoFeed (p : Pattern) : Prop :=
  ∀ word, p.Spells word → word.head? ≠ some '\n'

/-- No word ends with a carriage return. -/
def NoReturn (p : Pattern) : Prop :=
  ∀ word, p.Spells word → word.getLast? ≠ some '\r'

variable {p : Pattern} {rest : List Pattern} {accepts : Char → Bool}

theorem Fluid.stable (h : Fluid p) : Stable p := by
  intro word hword
  refine ⟨fun hcrlf => ?_, h.double word hword⟩
  have hstrip := h.strip _ hcrlf
  rwa [Text.lf_crlf hword] at hstrip

/-! ## Fluid patterns -/

theorem fluid_nil : Fluid (all []) := by
  refine ⟨fun word hword => ?_, fun word _ hword => ?_⟩
  · rw [spells_all_nil.1 hword]
    rfl
  · rw [spells_all_nil.1 hword]
    rfl

theorem fluid_run (h : accepts '\n' = true → accepts '\r' = true) : Fluid (.run accepts) := by
  refine ⟨fun word hword x hx => hword x (List.mem_of_mem_filter hx), fun word _ hword x hx => ?_⟩
  rcases Text.mem_crlf.1 hx with hx | ⟨rfl, hbreak⟩
  · exact hword x hx
  · exact h (hword _ hbreak)

theorem fluid_literal {text : Text} (hreturn : '\r' ∉ text) (hfeed : '\n' ∉ text) :
    Fluid (literal text) := by
  refine ⟨fun word hword => ?_, fun word _ hword => ?_⟩
  · rw [spells_literal.1 hword, Text.lf_of_not_mem hreturn]
    exact spells_literal.2 rfl
  · rw [spells_literal.1 hword, Text.crlf_of_not_mem hfeed]
    exact spells_literal.2 rfl

theorem fluid_char {c : Char} (hreturn : c ≠ '\r') (hfeed : c ≠ '\n') : Fluid (char c) := by
  refine ⟨fun word hword => ?_, fun word _ hword => ?_⟩
  · rw [spells_char.1 hword, Text.lf_of_not_mem (by simpa using hreturn.symm)]
    exact spells_char.2 rfl
  · rw [spells_char.1 hword, Text.crlf_of_not_mem (by simpa using hfeed.symm)]
    exact spells_char.2 rfl

theorem fluid_maybe (h : Fluid p) : Fluid (.maybe p) := by
  refine ⟨fun word hword => ?_, fun word hfree hword => ?_⟩
  · exact hword.imp (h.strip word) fun hnil => by rw [hnil]; rfl
  · exact hword.imp (h.double word hfree) fun hnil => by rw [hnil]; rfl

theorem fluid_many (h : Fluid p) : Fluid (.many p) := by
  refine ⟨?_, ?_⟩
  · rintro _ ⟨words, rfl, hwords⟩
    refine ⟨words.map lf, by rw [lf, List.filter_flatten]; rfl, fun u hu => ?_⟩
    obtain ⟨v, hv, rfl⟩ := List.mem_map.1 hu
    exact h.strip v (hwords v hv)
  · rintro _ hfree ⟨words, rfl, hwords⟩
    refine ⟨words.map crlf, Text.crlf_flatten words, fun u hu => ?_⟩
    obtain ⟨v, hv, rfl⟩ := List.mem_map.1 hu
    exact h.double v (fun hmem => hfree (List.mem_flatten.2 ⟨v, hv, hmem⟩)) (hwords v hv)

theorem fluid_cons (hp : Fluid p) (hrest : Fluid (all rest)) : Fluid (all (p :: rest)) := by
  refine ⟨fun word hword => ?_, fun word hfree hword => ?_⟩
  · obtain ⟨u, v, rfl, hu, hv⟩ := spells_all_cons.1 hword
    rw [Text.lf_append]
    exact spells_cons (hp.strip u hu) (hrest.strip v hv)
  · obtain ⟨u, v, rfl, hu, hv⟩ := spells_all_cons.1 hword
    rw [List.mem_append, not_or] at hfree
    rw [Text.crlf_append]
    exact spells_cons (hp.double u hfree.1 hu) (hrest.double v hfree.2 hv)

/-! ## Stable sequences -/

theorem stable_run1 (h : accepts '\n' = true → accepts '\r' = true) : Stable (run1 accepts) := by
  intro word hword
  rw [spells_run1, spells_run1, Ne, Text.crlf_eq_nil_iff]
  exact and_congr_right fun _ => (fluid_run h).stable word hword

theorem stable_maybe (h : Stable p) : Stable (.maybe p) := by
  intro word hword
  exact or_congr (h word hword) Text.crlf_eq_nil_iff

/-- Parts in sequence, with seams at which no line break falls apart. -/
theorem stable_cons (hp : Stable p) (hrest : Stable (all rest))
    (hseam : NoReturn p ∨ NoFeed (all rest)) : Stable (all (p :: rest)) := by
  intro word hword
  simp only [spells_all_cons]
  constructor
  · rintro ⟨a, b, hsplit, ha, hb⟩
    have hcut : a.getLast? = some '\r' → b.head? ≠ some '\n' := by
      rcases hseam with hreturn | hfeed
      · exact fun hlast => absurd hlast (hreturn a ha)
      · exact fun _ => hfeed b hb
    obtain ⟨u, v, rfl, rfl, rfl⟩ := Text.exists_split_crlf hsplit hcut
    rw [List.mem_append, not_or] at hword
    exact ⟨u, v, rfl, (hp u hword.1).1 ha, (hrest v hword.2).1 hb⟩
  · rintro ⟨u, v, rfl, hu, hv⟩
    rw [List.mem_append, not_or] at hword
    exact ⟨crlf u, crlf v, Text.crlf_append u v, (hp u hword.1).2 hu, (hrest v hword.2).2 hv⟩

/-! ## How words begin and end -/

theorem noFeed_of_begins {heads : List Char} (h : Begins p.Spells heads) (hheads : '\n' ∉ heads) :
    NoFeed p := by
  intro word hword
  obtain ⟨c, rest, rfl, hc⟩ := h word hword
  rw [List.head?_cons, Ne, Option.some.injEq]
  rintro rfl
  exact hheads hc

theorem noFeed_run (h : accepts '\n' = false) : NoFeed (.run accepts) := by
  intro word hword hhead
  rw [hword _ (List.mem_of_mem_head? hhead)] at h
  cases h

theorem noFeed_maybe (h : NoFeed p) : NoFeed (.maybe p) := by
  rintro word (hword | rfl)
  · exact h word hword
  · simp

theorem noFeed_many (h : NoFeed p) : NoFeed (.many p) := by
  rintro _ ⟨words, rfl, hwords⟩
  induction words with
  | nil => simp
  | cons first words ih =>
    rw [List.forall_mem_cons] at hwords
    rw [List.flatten_cons, List.head?_append]
    cases hfirst : first.head? with
    | none => exact ih hwords.2
    | some c =>
      have hne := h first hwords.1
      rwa [hfirst] at hne

theorem noFeed_nil : NoFeed (all []) := by
  intro word hword
  rw [spells_all_nil.1 hword]
  simp

theorem noFeed_cons (hp : NoFeed p) (hrest : NoFeed (all rest)) : NoFeed (all (p :: rest)) := by
  intro word hword
  obtain ⟨u, v, rfl, hu, hv⟩ := spells_all_cons.1 hword
  rw [List.head?_append]
  cases hhead : u.head? with
  | none => exact hrest v hv
  | some c =>
    have hne := hp u hu
    rwa [hhead] at hne

theorem noReturn_literal {text : Text} (h : '\r' ∉ text) : NoReturn (literal text) := by
  intro word hword hlast
  rw [spells_literal.1 hword] at hlast
  exact h (List.mem_of_getLast? hlast)

theorem noReturn_maybe (h : NoReturn p) : NoReturn (.maybe p) := by
  rintro word (hword | rfl)
  · exact h word hword
  · simp

/-- A sequence that ends in a given character. -/
theorem noReturn_append_char (ps : List Pattern) {c : Char} (h : c ≠ '\r') :
    NoReturn (all (ps ++ [char c])) := by
  intro word hword
  obtain ⟨u, v, rfl, _, hv⟩ := spells_all_append.1 hword
  have hc : v = [c] := by simpa using hv
  rw [hc, List.getLast?_append]
  simpa using h

end Pattern

/-! ## The shapes -/

namespace Shape

open Pattern Grammar

theorem crlf_of_blanks {blanks : Text} (h : Blanks blanks) : crlf blanks = blanks :=
  Text.crlf_of_not_mem fun hmem => absurd (h _ hmem) (by decide)

theorem blanks_lf {blanks : Text} (h : Blanks blanks) : Blanks (lf blanks) :=
  fun c hc => h c (List.mem_of_mem_filter hc)

theorem not_mem_lf {c : Char} {text : Text} (h : c ∉ text) : c ∉ lf text :=
  fun hmem => h (List.mem_of_mem_filter hmem)

/-- The carriage return of a documentation line belongs to its text. -/
theorem fluid_docLine : Fluid docLine := by
  refine ⟨fun word hword => ?_, fun word _ hword => ?_⟩
  · rw [spells_docLine_iff] at hword ⊢
    obtain ⟨hblanks, htext⟩ := hword
    simp only [Text.lf_append]
    exact .line (blanks_lf hblanks) (not_mem_lf htext)
  · rw [spells_docLine_iff] at hword ⊢
    obtain @⟨blanks, text, hblanks, htext⟩ := hword
    have hmark : crlf "///".toList = "///".toList := rfl
    have hline : DocLine (blanks ++ "///".toList ++ (text ++ ['\r']) ++ ['\n']) :=
      .line hblanks (by simpa using htext)
    have hcrlf : crlf (blanks ++ "///".toList ++ text ++ ['\n'])
        = blanks ++ "///".toList ++ (text ++ ['\r']) ++ ['\n'] := by
      rw [Text.crlf_append, Text.crlf_append, Text.crlf_append, crlf_of_blanks hblanks,
        hmark, Text.crlf_of_not_mem htext, Text.crlf_cons_newline, Text.crlf_nil]
      simp
    rwa [hcrlf]

/-- The carriage return of an attribute line is the one that the line allows for. -/
theorem fluid_attributeLine : Fluid attributeLine := by
  refine ⟨fun word hword => ?_, fun word hfree hword => ?_⟩
  · rw [spells_attributeLine_iff] at hword ⊢
    obtain @⟨blanks, text, later, ending, hblanks, htext, hlater, hending⟩ := hword
    have hreturn : lf ending = [] := by
      rcases hending with _ | rfl
      · rfl
      · rfl
    have hline := AttributeLine.line (blanks_lf hblanks) (not_mem_lf htext) (blanks_lf hlater)
      .absent
    have hlf : lf (blanks ++ "#[".toList ++ text ++ ']' :: later ++ ending ++ ['\n'])
        = lf blanks ++ "#[".toList ++ lf text ++ ']' :: lf later ++ [] ++ ['\n'] := by
      simp only [Text.lf_append, hreturn]
      rfl
    rwa [hlf]
  · rw [spells_attributeLine_iff] at hword ⊢
    obtain @⟨blanks, text, later, ending, hblanks, htext, hlater, hending⟩ := hword
    have hnone : ending = [] := by
      rcases hending with _ | rfl
      · rfl
      · simp at hfree
    subst hnone
    have hmark : crlf "#[".toList = "#[".toList := rfl
    have hline := AttributeLine.line hblanks htext hlater (.present (rfl : ['\r'] = ['\r']))
    have hcrlf : crlf (blanks ++ "#[".toList ++ text ++ ']' :: later ++ [] ++ ['\n'])
        = blanks ++ "#[".toList ++ text ++ ']' :: later ++ ['\r'] ++ ['\n'] := by
      rw [Text.crlf_append, Text.crlf_append, Text.crlf_append, Text.crlf_append, Text.crlf_append,
        crlf_of_blanks hblanks, hmark, Text.crlf_of_not_mem htext, Text.crlf_cons (by decide),
        crlf_of_blanks hlater, Text.crlf_cons_newline, Text.crlf_nil]
      simp
    rwa [hcrlf]

theorem fluid_indent : Fluid indent :=
  fluid_run (by decide)

theorem fluid_space : Fluid space :=
  fluid_run (by decide)

theorem fluid_upTo {c : Char} (h : c ≠ '\r') : Fluid (upTo c) :=
  fluid_run fun _ => by simpa using h.symm

theorem fluid_leading : Fluid leading :=
  fluid_cons (fluid_many fluid_docLine)
    (fluid_cons (fluid_many fluid_attributeLine) (fluid_cons fluid_indent fluid_nil))

/-- Something in brackets, and what follows. -/
theorem fluid_bracketed {opening closing : Char} (hopening : opening ≠ '\r' ∧ opening ≠ '\n')
    (hclosing : closing ≠ '\r' ∧ closing ≠ '\n') :
    Fluid (all [char opening, upTo closing, char closing]) :=
  fluid_cons (fluid_char hopening.1 hopening.2) (fluid_cons (fluid_upTo hclosing.1)
    (fluid_cons (fluid_char hclosing.1 hclosing.2) fluid_nil))

theorem fluid_generics : Fluid generics :=
  fluid_bracketed (by decide) (by decide)

theorem stable_gap : Stable gap :=
  stable_run1 (by decide)

theorem noFeed_leading : NoFeed leading := by
  have hdoc : NoFeed docLine := noFeed_cons (noFeed_run (by decide))
    (noFeed_of_begins (begins_cons (begins_literal '/' _) _) (by decide))
  have hattribute : NoFeed attributeLine := noFeed_cons (noFeed_run (by decide))
    (noFeed_of_begins (begins_cons (begins_literal '#' _) _) (by decide))
  exact noFeed_cons (noFeed_many hdoc) (noFeed_cons (noFeed_many hattribute)
    (noFeed_cons (noFeed_run (by decide)) noFeed_nil))

theorem stable_visibility : Stable (visibilityWith space) := by
  have hscope : Fluid (all [space, char '(', upTo ')', char ')']) :=
    fluid_cons fluid_space (fluid_bracketed (by decide) (by decide))
  have hgap : Stable (all [gap]) := stable_cons stable_gap fluid_nil.stable (.inr noFeed_nil)
  have hend : NoReturn (all [space, char '(', upTo ')', char ')']) :=
    noReturn_append_char [space, char '(', upTo ')'] (by decide)
  exact stable_cons (fluid_literal (by decide) (by decide)).stable
    (stable_cons (stable_maybe hscope.stable) hgap (.inl (noReturn_maybe hend)))
    (.inl (noReturn_literal (by decide)))

theorem noFeed_visibility : NoFeed (visibilityWith space) :=
  noFeed_of_begins (begins_cons (begins_literal 'p' _) _) (by decide)

theorem stable_qualifier {word : String} (hreturn : '\r' ∉ word.toList)
    (hfeed : '\n' ∉ word.toList) : Stable (qualifier word) :=
  stable_maybe (stable_cons (fluid_literal hreturn hfeed).stable
    (stable_cons stable_gap fluid_nil.stable (.inr noFeed_nil)) (.inl (noReturn_literal hreturn)))

theorem noFeed_qualifier {word : String} {c : Char} {later : Text} (h : word.toList = c :: later)
    (hc : c ≠ '\n') : NoFeed (qualifier word) := by
  have hbegins : Begins (literal word.toList).Spells [c] := by
    rw [h]
    exact begins_literal c later
  exact noFeed_maybe (noFeed_of_begins (begins_cons hbegins _) (by simpa using hc.symm))

/-- What stands in front of `fn`. -/
theorem stable_functionFront : Stable (all (functionFront space)) ∧
    NoFeed (all (functionFront space)) := by
  have hunsafe : NoFeed (all [qualifier "unsafe"]) :=
    noFeed_cons (noFeed_qualifier rfl (by decide)) noFeed_nil
  have hasync : NoFeed (all [qualifier "async", qualifier "unsafe"]) :=
    noFeed_cons (noFeed_qualifier rfl (by decide)) hunsafe
  have hconst : NoFeed (all [qualifier "const", qualifier "async", qualifier "unsafe"]) :=
    noFeed_cons (noFeed_qualifier rfl (by decide)) hasync
  have hmodifiers : NoFeed (all [.maybe (visibilityWith space), qualifier "const",
      qualifier "async", qualifier "unsafe"]) :=
    noFeed_cons (noFeed_maybe noFeed_visibility) hconst
  refine ⟨?_, noFeed_cons noFeed_leading hmodifiers⟩
  refine stable_cons fluid_leading.stable ?_ (.inr hmodifiers)
  refine stable_cons (stable_maybe stable_visibility) ?_ (.inr hconst)
  refine stable_cons (stable_qualifier (by decide) (by decide)) ?_ (.inr hasync)
  refine stable_cons (stable_qualifier (by decide) (by decide)) ?_ (.inr hunsafe)
  exact stable_cons (stable_qualifier (by decide) (by decide)) fluid_nil.stable (.inr noFeed_nil)

/-- What stands in front of `struct`. -/
theorem stable_structFront : Stable (all (structFront space)) ∧
    NoFeed (all (structFront space)) := by
  have hvisibility : NoFeed (all [.maybe (visibilityWith space)]) :=
    noFeed_cons (noFeed_maybe noFeed_visibility) noFeed_nil
  refine ⟨?_, noFeed_cons noFeed_leading hvisibility⟩
  exact stable_cons fluid_leading.stable
    (stable_cons (stable_maybe stable_visibility) fluid_nil.stable (.inr noFeed_nil))
    (.inr hvisibility)

/-- A gap, a usable name, and what follows it. -/
theorem stable_name {name : String} (hname : Identifier.isUsable name = true)
    {rest : List Pattern} (hrest : Stable (all rest)) :
    Stable (all (gap :: literal name.toList :: rest)) := by
  have hreturn : '\r' ∉ name.toList := Identifier.not_mem_of_isUsable hname rfl
  have hfeed : '\n' ∉ name.toList := Identifier.not_mem_of_isUsable hname rfl
  refine stable_cons stable_gap (stable_cons (fluid_literal hreturn hfeed).stable hrest
    (.inl (noReturn_literal hreturn))) (.inr ?_)
  intro word hword
  obtain ⟨u, v, rfl, hu, _⟩ := spells_all_cons.1 hword
  obtain ⟨c, later, hchars⟩ :=
    List.exists_cons_of_ne_nil (Identifier.isTail_of_isUsable hname).1
  rw [hchars, List.mem_cons, not_or] at hfeed
  rw [spells_literal.1 hu, hchars]
  simpa using Ne.symm hfeed.1

/-- A result type and the brace: white space at the end of the type is part of the type. -/
theorem stable_result : Stable (all [.maybe result, space, char '{']) := by
  have hshort : Stable (all [space, char '{']) :=
    (fluid_cons fluid_space (fluid_cons (fluid_char (by decide) (by decide)) fluid_nil)).stable
  have hlong : Stable (all [space, literal "->".toList, run1 (· != '{'), char '{']) := by
    have hbrace : NoFeed (all [char '{']) :=
      noFeed_of_begins (begins_cons (begins_char '{') _) (by decide)
    have htype : Stable (all [run1 (· != '{'), char '{']) :=
      stable_cons (stable_run1 fun _ => rfl)
        (fluid_cons (fluid_char (by decide) (by decide)) fluid_nil).stable (.inr hbrace)
    have harrow : NoFeed (all [literal "->".toList, run1 (· != '{'), char '{']) :=
      noFeed_of_begins (begins_cons (begins_literal '-' _) _) (by decide)
    exact stable_cons fluid_space.stable (stable_cons (fluid_literal (by decide) (by decide)).stable
      htype (.inl (noReturn_literal (by decide)))) (.inr harrow)
  have hwords : ∀ word, (all [.maybe result, space, char '{']).Spells word
      ↔ (all [space, char '{']).Spells word
        ∨ (all [space, literal "->".toList, run1 (· != '{'), char '{']).Spells word := by
    intro word
    rw [spells_result_iff]
    simp only [spells_all_cons, spells_all_nil, spells_char, spells_literal, spells_run1,
      spells_space_iff]
    constructor
    · rintro ⟨s₁, _, s₂, hs₁, _ | ⟨hne, htype⟩, hs₂, rfl⟩
      · exact .inl ⟨s₁ ++ s₂, ['{'], by simp, List.forall_mem_append.2 ⟨hs₁, hs₂⟩, ['{'], [], rfl,
          rfl, rfl⟩
      · rename_i type
        refine .inr ⟨s₁, "->".toList ++ (type ++ s₂ ++ ['{']), by simp, hs₁, "->".toList, _, rfl,
          rfl, type ++ s₂, ['{'], rfl,
          ⟨by simp [hne], List.forall_mem_append.2 ⟨spells_upTo htype, ?_⟩⟩, ['{'], [], rfl, rfl,
          rfl⟩
        exact spells_upTo fun hmem => absurd (hs₂ _ hmem) (by decide)
    · rintro (⟨s₁, _, rfl, hs₁, _, _, rfl, rfl, rfl⟩ |
        ⟨s₁, _, rfl, hs₁, _, _, rfl, rfl, type, _, rfl, ⟨hne, htype⟩, _, _, rfl, rfl, rfl⟩)
      · exact ⟨s₁, [], [], hs₁, .absent, by simp [Space], by simp⟩
      · exact ⟨s₁, _, [], hs₁, .present (.arrow hne (not_mem_of_upTo htype)), by simp [Space],
          by simp⟩
  intro word hword
  rw [hwords, hwords]
  exact or_congr (hshort word hword) (hlong word hword)

/-- A function from `fn` on. -/
theorem stable_keyword {name : String} (hname : Identifier.isUsable name = true) :
    Stable (all (keyword name)) := by
  have hparams : Fluid (all [space, .maybe generics, space, char '(', upTo ')', char ')']) :=
    fluid_cons fluid_space (fluid_cons (fluid_maybe fluid_generics)
      (fluid_cons fluid_space (fluid_bracketed (by decide) (by decide))))
  have hend : NoReturn (all [space, .maybe generics, space, char '(', upTo ')', char ')']) :=
    noReturn_append_char [space, .maybe generics, space, char '(', upTo ')'] (by decide)
  have htail : Stable (all [space, .maybe generics, space, char '(', upTo ')', char ')',
      .maybe result, space, char '{']) := by
    have hnested := stable_cons hparams.stable stable_result (.inl hend)
    intro word hword
    have h := hnested word hword
    rwa [spells_all_all_cons, spells_all_all_cons] at h
  exact stable_cons (fluid_literal (by decide) (by decide)).stable (stable_name hname htail)
    (.inl (noReturn_literal (by decide)))

/-- A struct from `struct` on. -/
theorem stable_structBody {name : String} (hname : Identifier.isUsable name = true) :
    Stable (all (structBody name)) := by
  have htail : Fluid (all [space, .maybe generics, space, char '{', upTo '}', char '}']) :=
    fluid_cons fluid_space (fluid_cons (fluid_maybe fluid_generics)
      (fluid_cons fluid_space (fluid_bracketed (by decide) (by decide))))
  exact stable_cons (fluid_literal (by decide) (by decide)).stable
    (stable_name hname htail.stable) (.inl (noReturn_literal (by decide)))

/-- An impl block from `impl` to its opening brace. -/
theorem stable_implHead {name : String} (hname : Identifier.isUsable name = true) :
    Stable (all (implHead name)) := by
  have htail : Fluid (all [.maybe generics, space, char '{']) :=
    fluid_cons (fluid_maybe fluid_generics)
      (fluid_cons fluid_space (fluid_cons (fluid_char (by decide) (by decide)) fluid_nil))
  have hend : NoReturn generics := noReturn_append_char [char '<', upTo '>'] (by decide)
  exact stable_cons (fluid_literal (by decide) (by decide)).stable
    (stable_cons (fluid_maybe fluid_generics).stable (stable_name hname htail.stable)
      (.inl (noReturn_maybe hend)))
    (.inl (noReturn_literal (by decide)))

end Shape

/-! ## Items in a text -/

namespace Grammar

/-- A form of items that does not depend on line endings: with carriage returns an item is an item,
and none begins or ends inside a line break. -/
structure Steady (form : Text → Text → Prop) : Prop where
  stable : ∀ before word, '\r' ∉ before → '\r' ∉ word →
    (form (crlf before) (crlf word) ↔ form before word)
  head : ∀ before word, form before word → ∃ c rest, word = c :: rest ∧ c ≠ '\n'
  last : ∀ before word, form before word → word.getLast? ≠ some '\r'

/-- Where a word may begin is told by the last character, which is the same. -/
theorem atWordStart_crlf (text : Text) : AtWordStart (crlf text) ↔ AtWordStart text := by
  rw [AtWordStart, AtWordStart, Text.getLast?_crlf]

/-- Items are steady if their parts are stable. -/
theorem steady_item {ps qs : List Pattern} {heads : List Char}
    (hps : Pattern.Stable (Pattern.all ps))
    (hfront : Pattern.NoFeed (Pattern.all ps)) (hqs : Pattern.Stable (Pattern.all qs))
    (hbegins : Begins (Pattern.all qs).Spells heads) (hheads : '\n' ∉ heads)
    (hend : Pattern.NoReturn (Pattern.all qs)) :
    Steady (Item (Pattern.all ps).Spells (Pattern.all qs).Spells) := by
  have hfeed := Pattern.noFeed_of_begins hbegins hheads
  refine ⟨fun before word hbefore hword => ⟨fun h => ?_, ?_⟩, ?_, ?_⟩
  · generalize hcrlf : crlf word = whole at h
    obtain @⟨u, v, hu, hstart, hv⟩ := h
    obtain ⟨x, y, rfl, rfl, rfl⟩ := Text.exists_split_crlf hcrlf fun _ => hfeed v hv
    rw [List.mem_append, not_or] at hword
    rw [← Text.crlf_append, atWordStart_crlf] at hstart
    exact .item ((hps x hword.1).1 hu) hstart ((hqs y hword.2).1 hv)
  · rintro ⟨hu, hstart, hv⟩
    rename_i u v
    rw [List.mem_append, not_or] at hword
    rw [Text.crlf_append]
    refine .item ((hps u hword.1).2 hu) ?_ ((hqs v hword.2).2 hv)
    rwa [← Text.crlf_append, atWordStart_crlf]
  · rintro before _ @⟨u, v, hu, _, hv⟩
    obtain ⟨d, later, rfl, hd⟩ := hbegins v hv
    rcases u with _ | ⟨c, u⟩
    · refine ⟨d, later, rfl, ?_⟩
      rintro rfl
      exact hheads hd
    · exact ⟨c, u ++ d :: later, rfl, fun hc => hfront _ hu (by rw [hc, List.head?_cons])⟩
  · rintro before _ @⟨u, v, _, _, hv⟩
    obtain ⟨c, rest, rfl, _⟩ := hbegins v hv
    have hne := hend _ hv
    rw [List.getLast?_append]
    cases hlast : (c :: rest).getLast? with
    | none => simp at hlast
    | some d => rwa [hlast] at hne

namespace Steady

variable {form : Text → Text → Prop}

/-- An item of a text with carriage returns is an item of the text. -/
theorem exists_split (h : Steady form) {text before word after : Text} (hfree : '\r' ∉ text)
    (htext : crlf text = before ++ (word ++ after)) (hword : form before word) :
    ∃ x y z, text = x ++ (y ++ z) ∧ before = crlf x ∧ word = crlf y ∧ after = crlf z ∧
      form x y := by
  obtain ⟨c, rest, rfl, hc⟩ := h.head before word hword
  have hlast := h.last before _ hword
  obtain ⟨x, r, rfl, rfl, hrest⟩ := Text.exists_split_crlf htext fun _ => by simpa using hc
  obtain ⟨y, z, rfl, hy, rfl⟩ := Text.exists_split_crlf hrest.symm fun hreturn =>
    absurd hreturn hlast
  simp only [List.mem_append, not_or] at hfree
  refine ⟨x, y, z, rfl, rfl, hy, rfl, (h.stable x y hfree.1 hfree.2.1).1 ?_⟩
  rwa [← hy]

/-- The first item of a text is the first one of the text with carriage returns. -/
theorem isFirst_crlf (h : Steady form) {x y z : Text} (hfree : '\r' ∉ x ++ (y ++ z))
    (hword : form x y) (hfirst : ∀ other, Spans form (x ++ (y ++ z)) other →
      Text.size x ≤ other.start) :
    IsFirst form (crlf (x ++ (y ++ z))) ⟨Text.size (crlf x), Text.size (crlf (x ++ y))⟩ := by
  have hfree' := hfree
  simp only [List.mem_append, not_or] at hfree'
  have hbroken := (h.stable x y hfree'.1 hfree'.2.1).2 hword
  refine ⟨⟨crlf x, crlf y, crlf z, by simp, hbroken, by simp⟩, ?_⟩
  rintro _ ⟨before, word, after, htext, hother, rfl⟩
  rw [List.append_assoc] at htext
  obtain ⟨x', y', z', heq, rfl, rfl, rfl, hword'⟩ := h.exists_split hfree htext hother
  have hle : Text.size x ≤ Text.size x' :=
    hfirst ⟨Text.size x', Text.size (x' ++ y')⟩ ⟨x', y', z', by rw [heq, List.append_assoc], hword',
      rfl⟩
  refine Text.size_crlf_le (Text.prefix_of_size_le ⟨y ++ z, rfl⟩ ⟨y' ++ z', heq.symm⟩ hle)

/-- A text with carriage returns has an item exactly if the text has one. -/
theorem spans_of_crlf (h : Steady form) {text : Text} (hfree : '\r' ∉ text) {span : Span}
    (hspan : Spans form (crlf text) span) : ∃ span, Spans form text span := by
  obtain ⟨before, word, after, htext, hword, rfl⟩ := hspan
  rw [List.append_assoc] at htext
  obtain ⟨x, y, z, rfl, rfl, rfl, rfl, hword'⟩ := h.exists_split hfree htext hword
  exact ⟨_, x, y, z, by rw [List.append_assoc], hword', rfl⟩

end Steady

end Grammar

namespace Shape

open Pattern Grammar

theorem steady_functionHead {name : String} (hname : Identifier.isUsable name = true) :
    Steady (FunctionHead Space name) := by
  have hfront : (all (functionFront space)).Spells = FunctionFront Space :=
    funext fun word => propext (spells_functionFront_iff space word)
  have hrest : (all (keyword name)).Spells = Signature name :=
    funext fun word => propext (spells_keyword_iff name word)
  have hsteady := steady_item stable_functionFront.1 stable_functionFront.2 (stable_keyword hname)
    (begins_cons (begins_literal 'f' _) _) (by decide) (noReturn_append_char
      [literal "fn".toList, gap, literal name.toList, space, .maybe generics, space, char '(',
        upTo ')', char ')', .maybe result, space] (by decide))
  rwa [hfront, hrest] at hsteady

theorem steady_structItem {name : String} (hname : Identifier.isUsable name = true) :
    Steady (StructItem Space name) := by
  have hfront : (all (structFront space)).Spells = StructFront Space :=
    funext fun word => propext (spells_structFront_iff space word)
  have hrest : (all (structBody name)).Spells = StructBody name :=
    funext fun word => propext (spells_structBody_iff name word)
  have hsteady := steady_item stable_structFront.1 stable_structFront.2 (stable_structBody hname)
    (begins_structBody name) (by decide) (noReturn_append_char
      [literal "struct".toList, gap, literal name.toList, space, .maybe generics, space, char '{',
        upTo '}'] (by decide))
  rwa [hfront, hrest] at hsteady

theorem steady_implHead {name : String} (hname : Identifier.isUsable name = true) :
    Steady (ImplHead name) :=
  steady_item (stable_cons fluid_leading.stable fluid_nil.stable (.inr noFeed_nil))
    (noFeed_cons noFeed_leading noFeed_nil) (stable_implHead hname) (begins_implHead name)
    (by decide) (noReturn_append_char
      [literal "impl".toList, .maybe generics, gap, literal name.toList, .maybe generics, space]
      (by decide))

end Shape

end Carver
