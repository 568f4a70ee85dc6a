import Carver.Proofs.Grammar

/-!
# Words that tell where they end

A form of words is delimited if no word of it is the beginning of another one, so that where a word
starts decides where it ends. Runs and optional parts are delimited by what follows them: the
character at which they stop tells which way was taken (`Text.Opens`). Structs are delimited
(`Shape.delimited_struct`), so a search that prefers some ends to others finds the only one.
-/

namespace Carver

namespace Text

/-- There is one way to pass accepted characters up to one that is not accepted. -/
theorem append_cons_inj_of_run {accepts : Char → Bool} {u v r s : Text} {c d : Char}
    (h : u ++ c :: r = v ++ d :: s) (hu : ∀ z ∈ u, accepts z = true)
    (hv : ∀ z ∈ v, accepts z = true) (hc : accepts c = false) (hd : accepts d = false) :
    u = v ∧ c = d := by
  rcases List.append_eq_append_iff.1 h with ⟨mid, rfl, hmid⟩ | ⟨mid, rfl, hmid⟩
  · rcases mid with _ | ⟨z, mid⟩
    · exact ⟨(List.append_nil _).symm, (List.cons.inj hmid).1⟩
    · have hz := hv z (by simp)
      rw [← (List.cons.inj hmid).1, hc] at hz
      cases hz
  · rcases mid with _ | ⟨z, mid⟩
    · exact ⟨List.append_nil _, (List.cons.inj hmid).1.symm⟩
    · have hz := hu z (by simp)
      rw [← (List.cons.inj hmid).1, hd] at hz
      cases hz

/-- Every word begins with accepted characters and then one of `heads`, which are not accepted. -/
structure Opens (form : Text → Prop) (accepts : Char → Bool) (heads : List Char) : Prop where
  stops : ∀ c ∈ heads, accepts c = false
  exists_eq : ∀ word, form word →
    ∃ u c rest, word = u ++ c :: rest ∧ (∀ z ∈ u, accepts z = true) ∧ c ∈ heads

/-- Every word begins with one of `heads`. -/
def Begins (form : Text → Prop) (heads : List Char) : Prop :=
  ∀ word, form word → ∃ c rest, word = c :: rest ∧ c ∈ heads

/-- No text begins with words of both forms. -/
def Clash (form other : Text → Prop) : Prop :=
  ∀ u v r s : Text, form u → other v → u ++ r ≠ v ++ s

/-- No word is the beginning of another one. -/
def Delimited (form : Text → Prop) : Prop :=
  ∀ u v r s : Text, form u → form v → u ++ r = v ++ s → u = v

variable {form other : Text → Prop} {accepts : Char → Bool} {heads heads' : List Char}

theorem Begins.opens (h : Begins form heads) (hstops : ∀ c ∈ heads, accepts c = false) :
    Opens form accepts heads := by
  refine ⟨hstops, fun word hword => ?_⟩
  obtain ⟨c, rest, rfl, hc⟩ := h word hword
  exact ⟨[], c, rest, rfl, by simp, hc⟩

theorem Begins.mono (h : Begins form heads) (hmono : ∀ word, other word → form word) :
    Begins other heads :=
  fun word hword => h word (hmono word hword)

theorem Begins.or (h : Begins form heads) (hother : Begins other heads') :
    Begins (fun word => form word ∨ other word) (heads ++ heads') := by
  rintro word (hword | hword)
  · obtain ⟨c, rest, heq, hc⟩ := h word hword
    exact ⟨c, rest, heq, List.mem_append_left _ hc⟩
  · obtain ⟨c, rest, heq, hc⟩ := hother word hword
    exact ⟨c, rest, heq, List.mem_append_right _ hc⟩

/-- Forms that open with different characters clash. -/
theorem Opens.clash (h : Opens form accepts heads) (hother : Opens other accepts heads')
    (hdisjoint : ∀ c ∈ heads, c ∉ heads') : Clash form other := by
  intro u v r s hu hv heq
  obtain ⟨x, c, t, rfl, hx, hc⟩ := h.exists_eq u hu
  obtain ⟨y, d, t', rfl, hy, hd⟩ := hother.exists_eq v hv
  rw [List.append_assoc, List.append_assoc, List.cons_append, List.cons_append] at heq
  obtain ⟨_, rfl⟩ := append_cons_inj_of_run heq hx hy (h.stops c hc) (hother.stops d hd)
  exact hdisjoint c hc hd

theorem Delimited.mono (h : Delimited form) (hmono : ∀ word, other word → form word) :
    Delimited other :=
  fun u v r s hu hv => h u v r s (hmono u hu) (hmono v hv)

theorem Delimited.or (h : Delimited form) (hother : Delimited other) (hclash : Clash form other) :
    Delimited fun word => form word ∨ other word := by
  rintro u v r s (hu | hu) (hv | hv) heq
  · exact h u v r s hu hv heq
  · exact absurd heq (hclash u v r s hu hv)
  · exact absurd heq.symm (hclash v u s r hv hu)
  · exact hother u v r s hu hv heq

/-- A run ends where something begins that is not accepted. -/
theorem Delimited.after_run (h : Delimited form) (hbegins : Begins form heads)
    (hstops : ∀ c ∈ heads, accepts c = false) :
    Delimited fun word => ∃ x y, word = x ++ y ∧ (∀ z ∈ x, accepts z = true) ∧ form y := by
  rintro _ _ r s ⟨x, y, rfl, hx, hy⟩ ⟨x', y', rfl, hx', hy'⟩ heq
  obtain ⟨c, t, hc, hcmem⟩ := hbegins y hy
  obtain ⟨d, t', hd, hdmem⟩ := hbegins y' hy'
  rw [List.append_assoc, List.append_assoc] at heq
  have hseam := heq
  rw [hc, hd, List.cons_append, List.cons_append] at hseam
  obtain ⟨rfl, _⟩ := append_cons_inj_of_run hseam hx hx' (hstops c hcmem) (hstops d hdmem)
  rw [h y y' r s hy hy' (List.append_cancel_left heq)]

/-- Words of one form, as many as there are, end where a word of the other form begins. -/
theorem Delimited.after_many (h : Delimited form) (hother : Delimited other)
    (hclash : Clash form other) :
    Delimited fun word => ∃ (words : List Text) (y : Text),
      word = words.flatten ++ y ∧ (∀ u ∈ words, form u) ∧ other y := by
  rintro _ _ r s ⟨words, y, rfl, hwords, hy⟩ ⟨words', y', rfl, hwords', hy'⟩ heq
  rw [List.append_assoc, List.append_assoc] at heq
  -- one word after the other, until one of the two sides has no more
  induction words generalizing words' with
  | nil =>
    cases words' with
    | nil => exact hother y y' r s hy hy' heq
    | cons word' words' =>
      rw [List.flatten_nil, List.nil_append, List.flatten_cons, List.append_assoc] at heq
      exact absurd heq.symm (hclash _ _ _ _ (hwords' word' (by simp)) hy)
  | cons word words ih =>
    rw [List.forall_mem_cons] at hwords
    rw [List.flatten_cons, List.append_assoc] at heq
    cases words' with
    | nil =>
      rw [List.flatten_nil, List.nil_append] at heq
      exact absurd heq (hclash _ _ _ _ hwords.1 hy')
    | cons word' words' =>
      rw [List.forall_mem_cons] at hwords'
      rw [List.flatten_cons, List.append_assoc] at heq
      have hfirst := h _ _ _ _ hwords.1 hwords'.1 heq
      subst hfirst
      have hlater := ih hwords.2 words' hwords'.2 (List.append_cancel_left heq)
      rw [List.flatten_cons, List.flatten_cons, List.append_assoc, List.append_assoc, hlater]

/-- Lines that end in their first line feed. -/
theorem delimited_of_line (h : ∀ word, form word → ∃ body, word = body ++ ['\n'] ∧ '\n' ∉ body) :
    Delimited form := by
  intro u v r s hu hv heq
  obtain ⟨x, rfl, hx⟩ := h u hu
  obtain ⟨y, rfl, hy⟩ := h v hv
  rw [List.append_assoc, List.append_assoc] at heq
  have haccepts : ∀ body : Text, '\n' ∉ body → ∀ z ∈ body, (z != '\n') = true := by
    intro body hbody z hz
    rw [bne_iff_ne]
    rintro rfl
    exact hbody hz
  rw [(append_cons_inj_of_run heq (haccepts x hx) (haccepts y hy) rfl rfl).1]

end Text

namespace Pattern

open Text (Opens Begins Clash Delimited)

variable {p : Pattern} {rest : List Pattern} {accepts : Char → Bool} {heads heads' : List Char}

/-! ## How sequences begin -/

theorem begins_literal (c : Char) (text : Text) : Begins (literal (c :: text)).Spells [c] :=
  fun _ hword => ⟨c, text, spells_literal.1 hword, by simp⟩

theorem begins_char (c : Char) : Begins (char c).Spells [c] :=
  fun _ hword => ⟨c, [], spells_char.1 hword, by simp⟩

theorem begins_cons (hp : Begins p.Spells heads) (rest : List Pattern) :
    Begins (all (p :: rest)).Spells heads := by
  intro word hword
  obtain ⟨u, v, rfl, hu, _⟩ := spells_all_cons.1 hword
  obtain ⟨c, t, rfl, hc⟩ := hp u hu
  exact ⟨c, t ++ v, rfl, hc⟩

theorem spells_maybe_cons {word : Text} (h : (all (.maybe p :: rest)).Spells word) :
    (all (p :: rest)).Spells word ∨ (all rest).Spells word := by
  obtain ⟨u, v, rfl, hu | rfl, hv⟩ := spells_all_cons.1 h
  · exact .inl (spells_cons hu hv)
  · exact .inr hv

theorem opens_cons (hp : Opens p.Spells accepts heads) (rest : List Pattern) :
    Opens (all (p :: rest)).Spells accepts heads := by
  refine ⟨hp.stops, fun word hword => ?_⟩
  obtain ⟨u, v, rfl, hu, _⟩ := spells_all_cons.1 hword
  obtain ⟨x, c, t, rfl, hx, hc⟩ := hp.exists_eq u hu
  exact ⟨x, c, t ++ v, by simp, hx, hc⟩

theorem opens_run_cons (hrest : Opens (all rest).Spells accepts heads) :
    Opens (all (.run accepts :: rest)).Spells accepts heads := by
  refine ⟨hrest.stops, fun word hword => ?_⟩
  obtain ⟨u, v, rfl, hu, hv⟩ := spells_all_cons.1 hword
  obtain ⟨x, c, t, rfl, hx, hc⟩ := hrest.exists_eq v hv
  exact ⟨u ++ x, c, t, by simp, List.forall_mem_append.2 ⟨hu, hx⟩, hc⟩

theorem opens_many_cons (hp : Opens p.Spells accepts heads)
    (hrest : Opens (all rest).Spells accepts heads') :
    Opens (all (.many p :: rest)).Spells accepts (heads ++ heads') := by
  refine ⟨List.forall_mem_append.2 ⟨hp.stops, hrest.stops⟩, fun word hword => ?_⟩
  obtain ⟨_, v, rfl, ⟨words, rfl, hwords⟩, hv⟩ := spells_all_cons.1 hword
  cases words with
  | nil =>
    obtain ⟨x, c, t, heq, hx, hc⟩ := hrest.exists_eq v hv
    exact ⟨x, c, t, heq, hx, List.mem_append_right _ hc⟩
  | cons first words =>
    obtain ⟨x, c, t, rfl, hx, hc⟩ := hp.exists_eq first (hwords first (by simp))
    exact ⟨x, c, t ++ (words.flatten ++ v), by simp, hx, List.mem_append_left _ hc⟩

/-- A run with at least one character is a run. -/
theorem spells_run_of_run1 {word : Text} (h : (all (run1 accepts :: rest)).Spells word) :
    (all (.run accepts :: rest)).Spells word := by
  obtain ⟨u, v, rfl, hu, hv⟩ := spells_all_cons.1 h
  exact spells_cons (spells_run1.1 hu).2 hv

/-! ## Delimited sequences -/

theorem delimited_literal (text : Text) : Delimited (literal text).Spells := by
  intro u v r s hu hv _
  rw [spells_literal.1 hu, spells_literal.1 hv]

theorem delimited_char (c : Char) : Delimited (char c).Spells := by
  intro u v r s hu hv _
  rw [spells_char.1 hu, spells_char.1 hv]

theorem delimited_cons (hp : Delimited p.Spells) (hrest : Delimited (all rest).Spells) :
    Delimited (all (p :: rest)).Spells := by
  intro u v r s hu hv heq
  obtain ⟨u₁, u₂, rfl, hu₁, hu₂⟩ := spells_all_cons.1 hu
  obtain ⟨v₁, v₂, rfl, hv₁, hv₂⟩ := spells_all_cons.1 hv
  rw [List.append_assoc, List.append_assoc] at heq
  have hfirst := hp _ _ _ _ hu₁ hv₁ heq
  subst hfirst
  rw [hrest _ _ _ _ hu₂ hv₂ (List.append_cancel_left heq)]

theorem delimited_run_cons (hrest : Delimited (all rest).Spells)
    (hbegins : Begins (all rest).Spells heads) (hstops : ∀ c ∈ heads, accepts c = false) :
    Delimited (all (.run accepts :: rest)).Spells :=
  (hrest.after_run hbegins hstops).mono fun _ hword => spells_all_cons.1 hword

/-- A given text between two runs: what it begins with that is accepted belongs to the first run. -/
theorem delimited_run_literal_cons (text : Text)
    (hrest : Delimited (all (.run accepts :: rest)).Spells) :
    Delimited (all (.run accepts :: literal text :: .run accepts :: rest)).Spells := by
  have htext := List.takeWhile_append_dropWhile (p := accepts) (l := text)
  have haccepted : ∀ z ∈ text.takeWhile accepts, accepts z = true :=
    fun z hz => List.all_eq_true.1 List.all_takeWhile z hz
  cases hcore : text.dropWhile accepts with
  | nil =>
    rw [hcore, List.append_nil] at htext
    rw [htext] at haccepted
    refine hrest.mono fun word hword => ?_
    obtain ⟨x, _, rfl, hx, hword⟩ := spells_all_cons.1 hword
    obtain ⟨u, _, rfl, hu, hword⟩ := spells_all_cons.1 hword
    obtain ⟨y, z, rfl, hy, hz⟩ := spells_all_cons.1 hword
    rw [spells_literal.1 hu, ← List.append_assoc, ← List.append_assoc]
    exact spells_cons (List.forall_mem_append.2 ⟨List.forall_mem_append.2 ⟨hx, haccepted⟩, hy⟩) hz
  | cons c core =>
    have hc : accepts c = false := by
      have hhead := List.head?_dropWhile_not accepts text
      rw [hcore] at hhead
      simpa using hhead
    have hcored : Delimited (all (literal (c :: core) :: .run accepts :: rest)).Spells :=
      delimited_cons (delimited_literal _) hrest
    refine (delimited_run_cons hcored (begins_cons (begins_literal c core) _)
      (by simpa using hc)).mono fun word hword => ?_
    obtain ⟨x, _, rfl, hx, hword⟩ := spells_all_cons.1 hword
    obtain ⟨u, v, rfl, hu, hv⟩ := spells_all_cons.1 hword
    rw [spells_literal.1 hu, ← htext, hcore, List.append_assoc, ← List.append_assoc x]
    exact spells_cons (List.forall_mem_append.2 ⟨hx, haccepted⟩)
      (spells_cons (spells_literal.2 rfl) hv)

/-- An optional part can be told from what follows it. -/
theorem delimited_maybe_cons (hp : Delimited (all (p :: rest)).Spells)
    (hrest : Delimited (all rest).Spells)
    (hclash : Clash (all (p :: rest)).Spells (all rest).Spells) :
    Delimited (all (.maybe p :: rest)).Spells :=
  (hp.or hrest hclash).mono fun _ => spells_maybe_cons

/-- An optional part with runs on both sides: without it the two runs are one. -/
theorem delimited_spaced (hp : Delimited (all (p :: .run accepts :: rest)).Spells)
    (hrest : Delimited (all rest).Spells) (hpresent : Begins p.Spells heads)
    (habsent : Begins (all rest).Spells heads') (hdisjoint : ∀ c ∈ heads, c ∉ heads')
    (hstops : ∀ c ∈ heads ++ heads', accepts c = false) :
    Delimited (all (.run accepts :: .maybe p :: .run accepts :: rest)).Spells := by
  rw [List.forall_mem_append] at hstops
  have hpresent' := begins_cons hpresent (.run accepts :: rest)
  have hclash := (hpresent'.opens hstops.1).clash (habsent.opens hstops.2) hdisjoint
  refine ((hp.or hrest hclash).after_run (hpresent'.or habsent)
    (List.forall_mem_append.2 hstops)).mono ?_
  intro word hword
  obtain ⟨x, y, rfl, hx, hy⟩ := spells_all_cons.1 hword
  rcases spells_maybe_cons hy with hy | hy
  · exact ⟨x, y, rfl, hx, .inl hy⟩
  · obtain ⟨x', y, rfl, hx', hy⟩ := spells_all_cons.1 hy
    exact ⟨x ++ x', y, (List.append_assoc _ _ _).symm, List.forall_mem_append.2 ⟨hx, hx'⟩, .inr hy⟩

/-- Repetitions can be told from what follows them. -/
theorem delimited_many_cons (hp : Delimited p.Spells) (hrest : Delimited (all rest).Spells)
    (hclash : Clash p.Spells (all rest).Spells) : Delimited (all (.many p :: rest)).Spells := by
  refine (hp.after_many hrest hclash).mono fun word hword => ?_
  obtain ⟨_, v, rfl, ⟨words, rfl, hwords⟩, hv⟩ := spells_all_cons.1 hword
  exact ⟨words, v, rfl, hwords, hv⟩

/-- A sequence in a sequence is part of it. -/
theorem spells_all_all_cons {ps rest : List Pattern} {word : Text} :
    (all (all ps :: rest)).Spells word ↔ (all (ps ++ rest)).Spells word := by
  rw [spells_all_cons, spells_all_append]

/-- Something in brackets that does not hold the closing one. -/
theorem delimited_bracketed (opening closing : Char) :
    Delimited (all [char opening, Shape.upTo closing, char closing]).Spells :=
  delimited_cons (delimited_char opening)
    (delimited_run_cons (delimited_char closing) (begins_char closing) (by simp))

end Pattern

namespace Shape

open Pattern Text

/-! ## Structs -/

theorem delimited_fields : Delimited (all [char '{', upTo '}', char '}']).Spells :=
  delimited_bracketed '{' '}'

/-- What follows the name of a struct. -/
theorem delimited_struct_tail :
    Delimited (all [space, .maybe generics, space, char '{', upTo '}', char '}']).Spells := by
  have hbegins : Begins (all [char '{', upTo '}', char '}']).Spells ['{'] :=
    begins_cons (begins_char '{') _
  refine delimited_spaced (delimited_cons (delimited_bracketed '<' '>') ?_) delimited_fields
    (begins_cons (begins_char '<') _) hbegins (by simp) (by simp; decide)
  exact delimited_run_cons delimited_fields hbegins (by simp; decide)

/-- A struct from its keyword on, whatever its name is. -/
theorem delimited_structBody (name : String) : Delimited (all (structBody name)).Spells := by
  refine delimited_cons (delimited_literal _) ?_
  exact (delimited_run_literal_cons name.toList delimited_struct_tail).mono
    fun _ => spells_run_of_run1

theorem begins_structBody (name : String) : Begins (all (structBody name)).Spells ['s'] :=
  begins_cons (begins_literal 's' _) _

/-- `pub` in front of something that begins with a visible character other than a parenthesis: the
parenthesis tells whether there is a scope. -/
theorem delimited_visibility {rest : List Pattern} {c : Char} (hrest : Delimited (all rest).Spells)
    (hbegins : Begins (all rest).Spells [c]) (hc : Text.isBlank c = false) (hparen : c ≠ '(') :
    Delimited (all (visibilityWith space :: rest)).Spells := by
  have hstops : ∀ d ∈ [c], Text.isBlank d = false := by simpa using hc
  have hgap : Delimited (all (gap :: rest)).Spells :=
    (delimited_run_cons hrest hbegins hstops).mono fun _ => spells_run_of_run1
  have hscope : Delimited (all [space, char '(', upTo ')', char ')']).Spells :=
    delimited_run_cons (delimited_bracketed '(' ')') (begins_cons (begins_char '(') _)
      (by simp; decide)
  have hopens : Opens (all [space, char '(', upTo ')', char ')']).Spells Text.isBlank ['('] :=
    opens_run_cons ((begins_cons (begins_char '(') _).opens (by simp; decide))
  have hopens' : Opens (all (gap :: rest)).Spells Text.isBlank [c] := by
    have hrun := opens_run_cons (hbegins.opens hstops)
    exact ⟨hrun.stops, fun word hword => hrun.exists_eq word (spells_run_of_run1 hword)⟩
  refine (delimited_cons (delimited_literal "pub".toList) (delimited_maybe_cons
    (delimited_cons hscope hgap) hgap ((opens_cons hopens _).clash hopens' ?_))).mono
    fun _ hword => spells_all_all_cons.1 hword
  simpa using hparen.symm

theorem opens_docLine : Opens docLine.Spells Text.isIndent ['/'] :=
  opens_run_cons ((begins_cons (begins_literal '/' _) _).opens (by simp; decide))

theorem opens_attributeLine : Opens attributeLine.Spells Text.isIndent ['#'] :=
  opens_run_cons ((begins_cons (begins_literal '#' _) _).opens (by simp; decide))

theorem delimited_docLine : Delimited docLine.Spells := by
  refine delimited_of_line fun word hword => ?_
  obtain ⟨body, heq, _, hbody⟩ := line_of_docLine hword
  exact ⟨body, heq, hbody⟩

theorem delimited_attributeLine : Delimited attributeLine.Spells := by
  refine delimited_of_line fun word hword => ?_
  obtain ⟨body, heq, _, hbody⟩ := line_of_attributeLine hword
  exact ⟨body, heq, hbody⟩

/-- Lines and indentation in front of something that begins with none of their characters. -/
theorem delimited_leading {rest : List Pattern} {heads : List Char}
    (hrest : Delimited (all rest).Spells) (hbegins : Begins (all rest).Spells heads)
    (hstops : ∀ c ∈ heads, Text.isIndent c = false) (hmarks : ∀ c ∈ heads, c ≠ '/' ∧ c ≠ '#') :
    Delimited (all (leading :: rest)).Spells := by
  have hitem : Opens (all (indent :: rest)).Spells Text.isIndent heads :=
    opens_run_cons (hbegins.opens hstops)
  have hattributes : Delimited (all (.many attributeLine :: indent :: rest)).Spells := by
    refine delimited_many_cons delimited_attributeLine (delimited_run_cons hrest hbegins hstops)
      (opens_attributeLine.clash hitem ?_)
    rw [List.forall_mem_singleton]
    exact fun hmem => (hmarks _ hmem).2 rfl
  refine (delimited_many_cons delimited_docLine hattributes
    (opens_docLine.clash (opens_many_cons opens_attributeLine hitem) ?_)).mono
    fun _ hword => spells_all_all_cons.1 hword
  rw [List.forall_mem_singleton, List.mem_append, not_or]
  exact ⟨by decide, fun hmem => (hmarks _ hmem).1 rfl⟩

/-- Where a struct starts decides where it ends. -/
theorem delimited_struct (name : String) (before : Text) :
    Delimited (Grammar.StructItem Grammar.Space name before) := by
  have hbody := delimited_structBody name
  have hbegins := begins_structBody name
  have hvisibility := delimited_visibility hbody hbegins (by decide) (by decide)
  have hpub : Begins (all (visibilityWith space :: structBody name)).Spells ['p'] :=
    begins_cons (begins_cons (begins_literal 'p' _) _) _
  have hitem : Delimited (all (.maybe (visibilityWith space) :: structBody name)).Spells := by
    have hopens : Opens (all (structBody name)).Spells Text.isBlank ['s'] :=
      hbegins.opens (by simp; decide)
    exact delimited_maybe_cons hvisibility hbody
      ((hpub.opens (by simp; decide)).clash hopens (by simp))
  have hleading : Delimited (all (structFront space ++ structBody name)).Spells := by
    refine delimited_leading hitem ((hpub.or hbegins).mono fun _ => spells_maybe_cons) ?_ ?_
    · simp; decide
    · simp
  refine hleading.mono ?_
  rintro _ ⟨hfront, _, hrest⟩
  exact spells_all_append.2 ⟨_, _, rfl, (spells_structFront_iff space _).2 hfront,
    (spells_structBody_iff name _).2 hrest⟩

end Shape

end Carver
