import Carver.Definition.Extract
import Carver.Proofs.Delimited
import Carver.Proofs.Names

/-!
# Impl blocks, one after the other

An impl block is a head, from the lines that belong to it to its opening brace, and then everything
up to the first line that is a lone closing brace (`ImplBlock`). `Carves` goes through a text from
left to right and takes every such block where it begins. This is what becomes of the matches of the
shape (`Carves.cutSpans_eq`): where a head starts decides where it ends, the shortest run reaches
the first closing line, and no block begins in the blanks behind a closing brace, so it makes no
difference whether the search goes on before or behind them.
-/

namespace Carver

/-! ## Closing lines -/

namespace Text

/-- Blanks, possibly a carriage return, and then the end of the line. -/
def endsLine : Text → Bool
  | [] => true
  | c :: rest =>
    c == '\n' || (c == '\r' && rest.head?.all (· == '\n')) || (isIndent c && endsLine rest)

/-- A line feed and then a line that is a lone closing brace. -/
def closesHere : Text → Bool
  | c :: d :: rest => c == '\n' && d == '}' && endsLine rest
  | _ => false

/-- What comes up to the first lone closing brace on its line, the brace included, and the rest. -/
def splitClosing? : Text → Option (Text × Text)
  | [] => none
  | c :: rest =>
    if closesHere (c :: rest) then some ([c, '}'], rest.tail)
    else (splitClosing? rest).map fun (inner, after) => (c :: inner, after)

theorem closesHere_iff {text : Text} :
    closesHere text = true ↔ ∃ rest, text = '\n' :: '}' :: rest ∧ endsLine rest = true := by
  constructor
  · intro h
    rcases text with _ | ⟨c, _ | ⟨d, rest⟩⟩
    · cases h
    · cases h
    · simp only [closesHere, Bool.and_eq_true, beq_iff_eq] at h
      obtain ⟨⟨rfl, rfl⟩, hrest⟩ := h
      exact ⟨rest, rfl, hrest⟩
  · rintro ⟨rest, rfl, hrest⟩
    simpa [closesHere] using hrest

theorem append_of_splitClosing? {text inner after : Text}
    (h : splitClosing? text = some (inner, after)) : text = inner ++ after := by
  induction text generalizing inner with
  | nil => cases h
  | cons c rest ih =>
    rw [splitClosing?] at h
    split at h
    · rename_i hcloses
      obtain ⟨later, heq, _⟩ := closesHere_iff.1 hcloses
      obtain ⟨rfl, rfl⟩ := List.cons.inj heq
      cases h
      rfl
    · obtain ⟨⟨inner', after'⟩, hrest, heq⟩ := Option.map_eq_some_iff.1 h
      cases heq
      rw [ih hrest, List.cons_append]

theorem endsLine_iff {text : Text} :
    endsLine text = true ↔ ∃ blanks ending after, text = blanks ++ ending ++ after ∧
      Grammar.Blanks blanks ∧ Grammar.Optional (· = ['\r']) ending ∧
      after.head?.all (· == '\n') = true := by
  constructor
  · intro h
    induction text with
    | nil => exact ⟨[], [], [], rfl, by simp [Grammar.Blanks], .absent, rfl⟩
    | cons c rest ih =>
      simp only [endsLine, Bool.or_eq_true, Bool.and_eq_true, beq_iff_eq] at h
      rcases h with (rfl | ⟨rfl, hrest⟩) | ⟨hc, hrest⟩
      · exact ⟨[], [], '\n' :: rest, rfl, by simp [Grammar.Blanks], .absent, rfl⟩
      · exact ⟨[], ['\r'], rest, rfl, by simp [Grammar.Blanks], .present rfl, hrest⟩
      · obtain ⟨blanks, ending, after, rfl, hblanks, hending, hafter⟩ := ih hrest
        refine ⟨c :: blanks, ending, after, rfl, List.forall_mem_cons.2 ⟨?_, hblanks⟩, hending,
          hafter⟩
        simpa [isIndent] using hc
  · rintro ⟨blanks, ending, after, rfl, hblanks, hending, hafter⟩
    induction blanks with
    | nil =>
      rcases hending with _ | rfl
      · cases after with
        | nil => rfl
        | cons c after =>
          have hc : (c == '\n') = true := hafter
          simp [endsLine, hc]
      · simp [endsLine, hafter]
    | cons c blanks ih =>
      obtain ⟨hc, hblanks⟩ := List.forall_mem_cons.1 hblanks
      have hc' : isIndent c = true := by simpa [isIndent] using hc
      rw [List.cons_append, List.cons_append, endsLine, hc', ih hblanks]
      simp

/-- From any place of a line tail on, the line ends. -/
theorem endsLine_of_append {tail rest : Text} (htail : ∀ c ∈ tail, isLineTail c = true)
    (h : endsLine (tail ++ rest) = true) : endsLine rest = true := by
  induction tail with
  | nil => exact h
  | cons c tail ih =>
    obtain ⟨hc, hmore⟩ := List.forall_mem_cons.1 htail
    simp only [List.cons_append, endsLine, Bool.or_eq_true, Bool.and_eq_true, beq_iff_eq] at h
    rcases h with (rfl | ⟨_, hnext⟩) | ⟨_, hrest⟩
    · cases hc
    · cases tail with
      | nil =>
        cases rest with
        | nil => rfl
        | cons d rest =>
          have hd : (d == '\n') = true := hnext
          simp [endsLine, hd]
      | cons d tail =>
        have hd : d = '\n' := by simpa using hnext
        rw [hd] at hmore
        exact absurd (hmore '\n' (by simp)) (by decide)
    · exact ih hmore hrest

end Text

/-! ## Answers of sequences -/

namespace Pattern

variable {α : Type}

theorem first_foldl_both (p : Pattern) (rest : List Pattern) (sequel : Cursor → Option α)
    (c : Cursor) :
    (rest.foldl .both p).first sequel c = p.first ((all rest).first sequel) c := by
  induction rest generalizing p c with
  | nil =>
    have hnothing : (all []).first sequel = sequel := funext fun d => findSome?_one d sequel
    rw [hnothing]
    rfl
  | cons q rest ih =>
    have hlater : (all (q :: rest)).first sequel = q.first ((all rest).first sequel) :=
      funext (ih q)
    rw [List.foldl_cons, ih, first_both, hlater]

theorem first_all_append (ps qs : List Pattern) (sequel : Cursor → Option α) (c : Cursor) :
    (all (ps ++ qs)).first sequel c = (all ps).first ((all qs).first sequel) c := by
  induction ps generalizing c with
  | nil => exact (findSome?_one c _).symm
  | cons p ps ih =>
    rw [List.cons_append, all, first_foldl_both, all, first_foldl_both]
    exact congrArg (p.first · c) (funext ih)

/-- Places without a match are passed. -/
theorem hitsFrom_of_passes {p : Pattern} {tail : Text} {c d : Cursor} (hpass : c.Passes tail d)
    (hnone : ∀ u v e, tail = u ++ v → v ≠ [] → c.Passes u e → p.ends e = []) :
    p.hitsFrom c = p.hitsFrom d := by
  induction tail generalizing c with
  | nil => rw [Cursor.eq_of_passes_nil hpass]
  | cons x tail ih =>
    have hends : p.ends c = [] := hnone [] (x :: tail) c rfl (by simp) (.refl c)
    obtain ⟨e, hstep, hrest⟩ := @Cursor.Passes.through c d [x] tail hpass
    obtain ⟨behind, ahead⟩ := c
    obtain ⟨behind', ahead'⟩ := e
    obtain ⟨hahead, hbehind⟩ := hstep
    simp only [List.singleton_append, List.reverse_singleton] at hahead hbehind
    subst hahead hbehind
    rw [hitsFrom_eq, hends, List.find?_nil]
    refine ih hrest fun u v e huv hv hpass' => ?_
    have hx : Cursor.Passes ⟨behind, x :: ahead'⟩ [x] ⟨x :: behind, ahead'⟩ := ⟨rfl, rfl⟩
    exact hnone (x :: u) v e (by rw [huv, List.cons_append]) hv (hx.trans hpass')

/-- A match from a place on starts there or further ahead, and is derived. -/
theorem derives_of_mem_hitsFrom {p : Pattern} {c : Cursor} {hit : Hit} (h : hit ∈ p.hitsFrom c) :
    (∃ word, c.Passes word hit.start) ∧ Derives p hit.start hit.stop := by
  induction hlength : c.ahead.length using Nat.strongRecOn generalizing c with
  | ind length ih =>
    rw [hitsFrom_eq] at h
    split at h
    · rename_i d hfind
      have hshorter : d.ahead.length < length := by
        have hsome := List.find?_some hfind
        rw [decide_eq_true_eq, hlength] at hsome
        exact hsome
      have hderives := derives_of_mem_ends (List.mem_of_find?_eq_some hfind)
      rcases List.mem_cons.1 h with rfl | h
      · exact ⟨⟨[], .refl c⟩, hderives⟩
      · obtain ⟨u, -, hu⟩ := hderives.exists_spells
        obtain ⟨⟨v, hv⟩, hlater⟩ := ih _ hshorter h rfl
        exact ⟨⟨u ++ v, hu.trans hv⟩, hlater⟩
    · obtain ⟨behind, _ | ⟨x, rest⟩⟩ := c
      · cases h
      · have hshorter : rest.length < length := by
          rw [← hlength]
          exact Nat.lt_succ_self _
        have hx : Cursor.Passes ⟨behind, x :: rest⟩ [x] ⟨x :: behind, rest⟩ := ⟨rfl, rfl⟩
        obtain ⟨⟨v, hv⟩, hlater⟩ := @ih _ hshorter ⟨x :: behind, rest⟩ h rfl
        exact ⟨⟨[x] ++ v, hx.trans hv⟩, hlater⟩

end Pattern

open Pattern

/-! ## Blocks -/

namespace Shape

/-- An impl block from its keyword to its opening brace. -/
def implHead (name : String) : List Pattern :=
  [literal "impl".toList, .maybe generics, gap, literal name.toList, .maybe generics, space,
    char '{']

/-- The end of an impl block: a line that is a lone closing brace. -/
def implClosing : List Pattern :=
  [char '\n', char '}', indent, .maybe (char '\r'), .lineEnd]

/-- An impl block behind its opening brace. -/
def implBody : List Pattern :=
  .shortRun (fun _ => true) :: implClosing

theorem impl_eq (name : String) :
    impl name = all (([leading] ++ .wordEdge :: implHead name) ++ implBody) :=
  rfl

theorem isPlain_implHead (name : String) : (all (implHead name)).isPlain = true := by
  rw [implHead, isPlain_all]
  simp only [List.all_cons, isPlain_literal]
  rfl

theorem begins_implHead (name : String) : Text.Begins (all (implHead name)).Spells ['i'] :=
  begins_cons (begins_literal 'i' _) _

/-- What follows `impl`, up to the opening brace. -/
theorem delimited_implHead {name : String} (hname : Identifier.isUsable name = true) :
    Text.Delimited (all (implHead name)).Spells := by
  have hbrace : Text.Delimited (all [char '{']).Spells := delimited_char '{'
  have hbegins : Text.Begins (all [char '{']).Spells ['{'] := begins_char '{'
  have hspace : Text.Delimited (all [space, char '{']).Spells :=
    delimited_run_cons hbrace hbegins (by simp; decide)
  have hopens : Text.Opens (all [space, char '{']).Spells Text.isBlank ['{'] :=
    opens_run_cons (hbegins.opens (by simp; decide))
  have hgenerics : ∀ rest, Text.Opens (all (generics :: rest)).Spells Text.isBlank ['<'] :=
    fun rest => (begins_cons (begins_cons (begins_char '<') _) rest).opens (by simp; decide)
  have htail : Text.Delimited (all [.maybe generics, space, char '{']).Spells :=
    delimited_maybe_cons (delimited_cons (delimited_bracketed '<' '>') hspace) hspace
      ((hgenerics _).clash hopens (by simp))
  -- the name begins with a character that is neither blank nor a bracket
  obtain ⟨hne, htails⟩ := Identifier.isTail_of_isUsable hname
  obtain ⟨c, later, hchars⟩ := List.exists_cons_of_ne_nil hne
  have hc : Identifier.isTail c = true := htails c (by simp [hchars])
  have hblank : ∀ d ∈ [c], Text.isBlank d = false :=
    List.forall_mem_singleton.2 (Identifier.isBlank_eq_false hc)
  have hbracket : c ≠ '<' := by
    rintro rfl
    cases hc
  have hnamed : Text.Delimited (all (gap :: literal (c :: later) ::
      [.maybe generics, space, char '{'])).Spells :=
    (delimited_run_cons (delimited_cons (delimited_literal _) htail)
      (begins_cons (begins_literal c later) _) hblank).mono fun _ => spells_run_of_run1
  have hnames : Text.Opens (all (gap :: literal (c :: later) ::
      [.maybe generics, space, char '{'])).Spells Text.isBlank [c] := by
    have hrun := opens_run_cons ((begins_cons (begins_literal c later)
      [.maybe generics, space, char '{']).opens hblank)
    exact ⟨hrun.stops, fun word hword => hrun.exists_eq word (spells_run_of_run1 hword)⟩
  rw [implHead, hchars]
  exact delimited_cons (delimited_literal _) (delimited_maybe_cons
    (delimited_cons (delimited_bracketed '<' '>') hnamed) hnamed
    ((hgenerics _).clash hnames (by simpa using hbracket.symm)))

end Shape

open Shape

/-- The head of an impl block of this name, behind the text `before`. -/
def ImplHead (name : String) : Text → Text → Prop :=
  Grammar.Item (all [leading]).Spells (all (implHead name)).Spells

theorem describes_implHead (name : String) :
    (all ([leading] ++ .wordEdge :: implHead name)).Describes (ImplHead name) := by
  refine describes_edge rfl (isPlain_implHead name) fun word hword => ?_
  obtain ⟨c, rest, rfl, hc⟩ := begins_implHead name word hword
  rw [List.mem_singleton.1 hc]
  rfl

theorem spells_of_implHead {name : String} {before word : Text} (h : ImplHead name before word) :
    (all (leading :: implHead name)).Spells word := by
  obtain ⟨hfront, _, hrest⟩ := h
  exact spells_all_append.2 ⟨_, _, rfl, hfront, hrest⟩

/-- Where a head starts decides where it ends. -/
theorem delimited_head {name : String} (hname : Identifier.isUsable name = true) (before : Text) :
    Text.Delimited (ImplHead name before) :=
  (delimited_leading (delimited_implHead hname) (begins_implHead name) (by simp; decide)
    (by simp)).mono fun _ => spells_of_implHead

/-- A head begins with blanks and then a slash, a hash or its keyword. -/
theorem opens_head (name : String) (before : Text) :
    Text.Opens (ImplHead name before) Text.isIndent ['/', '#', 'i'] := by
  have hitem : Text.Opens (all (indent :: implHead name)).Spells Text.isIndent ['i'] :=
    opens_run_cons ((begins_implHead name).opens (by simp; decide))
  have hlines := opens_many_cons opens_docLine (opens_many_cons opens_attributeLine hitem)
  refine ⟨hlines.stops, fun word hword => hlines.exists_eq word ?_⟩
  exact spells_all_all_cons.1 (spells_of_implHead hword)

/-- An impl block of this name behind the text `before`, if `rest` comes behind it. -/
inductive ImplBlock (name : String) (before : Text) : Text → Text → Prop
  | block {head inner rest : Text} : ImplHead name before head →
      Text.splitClosing? (inner ++ rest) = some (inner, rest) →
      ImplBlock name before (head ++ inner) rest

/-- Where a block starts decides where it ends. -/
theorem ImplBlock.unique {name : String} (hname : Identifier.isUsable name = true)
    {before block block' rest rest' : Text} (h : ImplBlock name before block rest)
    (h' : ImplBlock name before block' rest') (heq : block ++ rest = block' ++ rest') :
    block = block' ∧ rest = rest' := by
  obtain ⟨hhead, hclosing⟩ := h
  obtain ⟨hhead', hclosing'⟩ := h'
  rw [List.append_assoc, List.append_assoc] at heq
  have hsame := delimited_head hname before _ _ _ _ hhead hhead' heq
  subst hsame
  rw [List.append_cancel_left heq, hclosing'] at hclosing
  simp only [Option.some.injEq, Prod.mk.injEq] at hclosing
  rw [hclosing.1, hclosing.2]
  exact ⟨rfl, rfl⟩

theorem ImplBlock.ne_nil {name : String} {before block rest : Text}
    (h : ImplBlock name before block rest) : block ≠ [] := by
  obtain ⟨hhead, _⟩ := h
  obtain ⟨u, c, t, rfl, _⟩ := (opens_head name before).exists_eq _ hhead
  simp

/-! ## Matches of the shape -/

/-- The second place lies behind the first one in the tail of a line that ends with a brace. -/
def Cursor.ClosesAt (c d : Cursor) : Prop :=
  c.behind.head? = some '}' ∧ Text.endsLine c.ahead = true ∧
    ∃ tail, c.Passes tail d ∧ ∀ x ∈ tail, isLineTail x = true

/-- Going back over the tail of the line leads to the brace. -/
theorem Cursor.ClosesAt.retreat_eq {c d : Cursor} (h : c.ClosesAt d) :
    d.retreat isLineTail = c := by
  obtain ⟨behind, ahead⟩ := c
  obtain ⟨behind', ahead'⟩ := d
  obtain ⟨hbrace, _, tail, ⟨hahead, hbehind⟩, htail⟩ := h
  simp only at hbrace hahead hbehind
  obtain ⟨later, rfl⟩ : ∃ later, behind = '}' :: later := by
    cases behind with
    | nil => cases hbrace
    | cons x later => exact ⟨later, by rw [Option.some.inj hbrace]⟩
  have htail' : ∀ x ∈ tail.reverse, isLineTail x = true :=
    fun x hx => htail x (List.mem_reverse.1 hx)
  subst hahead hbehind
  rw [retreat, List.dropWhile_append_of_pos htail', List.takeWhile_append_of_pos htail',
    List.dropWhile_cons_of_neg (by decide), List.takeWhile_cons_of_neg (by decide),
    List.append_nil, List.reverse_reverse]

/-- A match of the closing line ends in the tail of that line. -/
theorem closesAt_of_derives {behind text : Text} {d : Cursor}
    (h : Derives (all implClosing) ⟨behind, text⟩ d) :
    ∃ rest, text = '\n' :: '}' :: rest ∧ Cursor.ClosesAt ⟨'}' :: '\n' :: behind, rest⟩ d := by
  have hsplit : implClosing = [char '\n', char '}', indent, .maybe (char '\r')] ++ [.lineEnd] := rfl
  rw [hsplit, derives_all_append] at h
  obtain ⟨e, hline, hend⟩ := h
  have hlineEnd : Derives .lineEnd e d := hend
  obtain ⟨word, hword, hahead, hbehind⟩ := hline.exists_spells
  cases hlineEnd with
  | lineEnd hafter =>
    simp only [spells_all_cons, spells_all_nil, spells_char] at hword
    obtain ⟨_, _, rfl, rfl, _, _, rfl, rfl, blanks, _, rfl, hblanks, ending, _, rfl, hending,
      rfl⟩ := hword
    rw [spells_indent_iff] at hblanks
    have hending' : Grammar.Optional (· = ['\r']) ending :=
      (spells_maybe_iff (fun _ => spells_char) ending).1 hending
    have htail : ∀ x ∈ blanks ++ ending, isLineTail x = true := by
      refine List.forall_mem_append.2 ⟨fun x hx => ?_, fun x hx => ?_⟩
      · rcases hblanks x hx with rfl | rfl <;> rfl
      · rcases hending' with _ | rfl
        · cases hx
        · rw [List.mem_singleton.1 hx]
          rfl
    refine ⟨blanks ++ ending ++ d.ahead, by simpa using hahead, rfl, ?_, blanks ++ ending,
      ⟨rfl, by simpa using hbehind⟩, htail⟩
    exact Text.endsLine_iff.2 ⟨blanks, ending, d.ahead, rfl, hblanks, hending', hafter⟩

theorem exists_derives_closing {text : Text} (h : Text.closesHere text = true) (behind : Text) :
    ∃ d, Derives (all implClosing) ⟨behind, text⟩ d := by
  obtain ⟨rest, rfl, hrest⟩ := Text.closesHere_iff.1 h
  obtain ⟨blanks, ending, after, rfl, hblanks, hending, hafter⟩ := Text.endsLine_iff.1 hrest
  have hword : (all [char '\n', char '}', indent, .maybe (char '\r')]).Spells
      ('\n' :: '}' :: blanks ++ ending) := by
    simp only [spells_all_cons, spells_all_nil, spells_char]
    exact ⟨['\n'], _, rfl, rfl, ['}'], _, rfl, rfl, blanks, ending, rfl,
      spells_indent_iff.2 hblanks, ending, [], by simp,
      (spells_maybe_iff (fun _ => spells_char) ending).2 hending, rfl⟩
  have hsplit : implClosing = [char '\n', char '}', indent, .maybe (char '\r')] ++ [.lineEnd] := rfl
  refine ⟨⟨('\n' :: '}' :: blanks ++ ending).reverse ++ behind, after⟩, ?_⟩
  rw [hsplit, derives_all_append]
  exact ⟨_, derives_of_spells rfl hword ⟨by simp, rfl⟩, .lineEnd hafter⟩

theorem first_implBody (behind : Text) :
    (all implBody).first some ⟨behind, []⟩ = (all implClosing).first some ⟨behind, []⟩ ∧
      ∀ c rest, (all implBody).first some ⟨behind, c :: rest⟩
        = ((all implClosing).first some ⟨behind, c :: rest⟩).or
          ((all implBody).first some ⟨c :: behind, rest⟩) := by
  have hbody : ∀ c, (all implBody).first some c
      = (Pattern.shortRun (fun _ => true)).first ((all implClosing).first some) c :=
    first_all_append [.shortRun fun _ => true] implClosing some
  refine ⟨by rw [hbody, first_shortRun_nil], fun c rest => ?_⟩
  rw [hbody, hbody, first_shortRun_cons, if_pos rfl]

/-- The shortest run in front of a closing line reaches the first one. -/
theorem splitClosing?_of_first {behind text : Text} {d : Cursor}
    (h : (all implBody).first some ⟨behind, text⟩ = some d) :
    ∃ inner rest, Text.splitClosing? text = some (inner, rest) ∧
      Cursor.ClosesAt ⟨inner.reverse ++ behind, rest⟩ d := by
  have hclosing : ∀ {c : Cursor}, (all implClosing).first some c = some d →
      Derives (all implClosing) c d := by
    intro c hc
    rw [first_some] at hc
    exact derives_of_mem_ends (List.mem_of_mem_head? hc)
  induction text generalizing behind with
  | nil =>
    rw [(first_implBody behind).1] at h
    obtain ⟨rest, heq, _⟩ := closesAt_of_derives (hclosing h)
    cases heq
  | cons c rest ih =>
    rw [(first_implBody behind).2, Option.or_eq_some_iff] at h
    rcases h with hhere | ⟨hnone, hlater⟩
    · obtain ⟨later, heq, hcloses⟩ := closesAt_of_derives (hclosing hhere)
      have hsplit : Text.splitClosing? (c :: rest) = some (['\n', '}'], later) := by
        rw [heq, Text.splitClosing?, if_pos (Text.closesHere_iff.2 ⟨later, rfl, hcloses.2.1⟩)]
        rfl
      exact ⟨_, _, hsplit, hcloses⟩
    · have hnot : ¬ Text.closesHere (c :: rest) = true := by
        intro hcloses
        obtain ⟨e, he⟩ := exists_derives_closing hcloses behind
        rw [first_some] at hnone
        exact head?_ends_eq_none_iff.1 hnone e he
      obtain ⟨inner, after, hsplit, hcloses⟩ := ih hlater
      refine ⟨c :: inner, after, by rw [Text.splitClosing?, if_neg hnot, hsplit]; rfl, ?_⟩
      rwa [List.reverse_cons, List.append_assoc]

/-- A closing line ahead is reached. -/
theorem first_implBody_ne_none {behind text : Text} {parts : Text × Text}
    (h : Text.splitClosing? text = some parts) :
    (all implBody).first some ⟨behind, text⟩ ≠ none := by
  induction text generalizing behind parts with
  | nil => cases h
  | cons c rest ih =>
    rw [(first_implBody behind).2, Ne, Option.or_eq_none_iff]
    rintro ⟨hhere, hlater⟩
    rw [Text.splitClosing?] at h
    split at h
    · rename_i hcloses
      obtain ⟨e, he⟩ := exists_derives_closing hcloses behind
      rw [first_some] at hhere
      exact head?_ends_eq_none_iff.1 hhere e he
    · obtain ⟨parts', hrest, _⟩ := Option.map_eq_some_iff.1 h
      exact ih hrest hlater

/-- A match of the shape is a block and the tail of its last line. -/
theorem exists_implBlock_of_first {name : String} {before ahead : Text} {d : Cursor}
    (h : (impl name).first some ⟨before.reverse, ahead⟩ = some d) :
    ∃ block rest, ahead = block ++ rest ∧ ImplBlock name before block rest ∧
      Cursor.ClosesAt ⟨block.reverse ++ before.reverse, rest⟩ d := by
  rw [impl_eq, first_all_append, first] at h
  obtain ⟨e, he, hbody⟩ := List.exists_of_findSome?_eq_some h
  have hderives := derives_of_mem_ends he
  obtain ⟨head, _, hahead, hbehind⟩ := hderives.exists_spells
  obtain ⟨behind, ahead'⟩ := e
  simp only at hahead hbehind
  subst hahead hbehind
  obtain ⟨inner, rest, hsplit, hcloses⟩ := splitClosing?_of_first hbody
  have hwhole := Text.append_of_splitClosing? hsplit
  rw [hwhole] at hsplit hderives
  refine ⟨head ++ inner, rest, by rw [hwhole, List.append_assoc],
    .block ((describes_implHead name before head _).1 hderives) hsplit, ?_⟩
  rwa [List.reverse_append, List.append_assoc]

/-- A block is matched. -/
theorem first_impl_ne_none {name : String} {before block rest : Text}
    (h : ImplBlock name before block rest) :
    (impl name).first some ⟨before.reverse, block ++ rest⟩ ≠ none := by
  obtain @⟨head, inner, _, hhead, hclosing⟩ := h
  rw [impl_eq, first_all_append, first, Ne, List.findSome?_eq_none_iff, List.append_assoc]
  intro hnone
  exact first_implBody_ne_none hclosing (hnone _ (mem_ends_of_derives
    ((describes_implHead name before head (inner ++ rest)).2 hhead)))

/-- Without a block there is no match. -/
theorem ends_impl_eq_nil {name : String} {before ahead : Text}
    (h : ∀ block rest, ahead = block ++ rest → ¬ ImplBlock name before block rest) :
    (impl name).ends ⟨before.reverse, ahead⟩ = [] := by
  rw [← List.head?_eq_none_iff, ← first_some, Option.eq_none_iff_forall_ne_some]
  intro d hd
  obtain ⟨block, rest, heq, hblock, _⟩ := exists_implBlock_of_first hd
  exact h block rest heq hblock

/-- Nothing begins in the tail of a line. -/
theorem not_implBlock_of_endsLine {name : String} {before block rest : Text}
    (h : Text.endsLine (block ++ rest) = true) : ¬ ImplBlock name before block rest := by
  rintro @⟨head, inner, _, hhead, _⟩
  obtain ⟨u, c, t, rfl, hu, hc⟩ := (opens_head name before).exists_eq head hhead
  have htail : ∀ x ∈ u, isLineTail x = true := fun x hx => by rw [isLineTail, hu x hx]; rfl
  have hline : Text.endsLine (c :: (t ++ inner ++ rest)) = true :=
    Text.endsLine_of_append htail (by simpa using h)
  simp only [List.mem_cons, List.not_mem_nil, or_false] at hc
  rcases hc with rfl | rfl | rfl <;> cases hline

theorem ends_impl_of_endsLine {name : String} {behind ahead : Text}
    (h : Text.endsLine ahead = true) : (impl name).ends ⟨behind, ahead⟩ = [] := by
  rw [← List.reverse_reverse behind]
  refine ends_impl_eq_nil fun block rest heq => ?_
  rw [heq] at h
  exact not_implBlock_of_endsLine h

/-! ## All blocks of a text -/

/-- Going through a text from left to right takes the pieces out of it, each a block of this name
where it begins, and leaves the rest. -/
inductive Carves (name : String) : Text → Text → List Text → Text → Prop
  | done {before : Text} : Carves name before [] [] []
  | skip {before : Text} {c : Char} {rest : Text} {pieces : List Text} {left : Text} :
      (∀ block after, c :: rest = block ++ after → ¬ ImplBlock name before block after) →
      Carves name (before ++ [c]) rest pieces left →
      Carves name before (c :: rest) pieces (c :: left)
  | take {before block rest : Text} {pieces : List Text} {left : Text} :
      ImplBlock name before block rest → Carves name (before ++ block) rest pieces left →
      Carves name before (block ++ rest) (block :: pieces) left

theorem exists_carves (name : String) (before ahead : Text) :
    ∃ pieces left, Carves name before ahead pieces left := by
  induction hlength : ahead.length using Nat.strongRecOn generalizing before ahead with
  | ind length ih =>
    by_cases hblock : ∃ block rest, ahead = block ++ rest ∧ ImplBlock name before block rest
    · obtain ⟨block, rest, rfl, hblock⟩ := hblock
      have hshorter : rest.length < length := by
        have hpos := List.length_pos_iff.2 hblock.ne_nil
        rw [List.length_append] at hlength
        omega
      obtain ⟨pieces, left, hrest⟩ := ih _ hshorter (before ++ block) rest rfl
      exact ⟨block :: pieces, left, .take hblock hrest⟩
    · cases ahead with
      | nil => exact ⟨[], [], .done⟩
      | cons c rest =>
        have hshorter : rest.length < length := by
          rw [List.length_cons] at hlength
          omega
        obtain ⟨pieces, left, hrest⟩ := ih _ hshorter (before ++ [c]) rest rfl
        exact ⟨pieces, c :: left, .skip (fun block after heq hat => hblock ⟨block, after, heq, hat⟩)
          hrest⟩

/-- The bytes that are cut out for a match of the shape. -/
def implSpan (hit : Hit) : Span :=
  ⟨hit.start.offset, (hit.stop.retreat isLineTail).offset⟩

/-- No match starts before the place that is searched from. -/
theorem offset_le_of_mem_hitsFrom {p : Pattern} {c : Cursor} {hit : Hit} (h : hit ∈ p.hitsFrom c) :
    c.offset ≤ hit.start.offset := by
  obtain ⟨⟨word, hpass⟩, -⟩ := derives_of_mem_hitsFrom h
  rw [hpass.offset_eq]
  exact Nat.le_add_right _ _

/-- A character in front of all spans stays. -/
theorem cutSpans_cons {base : Nat} {c : Char} {text : Text} {spans : List Span}
    (h : ∀ span ∈ spans, base + c.utf8Size ≤ span.start) :
    cutSpans base (c :: text) spans
      = ((cutSpans (base + c.utf8Size) text spans).1,
        c :: (cutSpans (base + c.utf8Size) text spans).2) := by
  cases spans with
  | nil => rfl
  | cons span later =>
    have hstart := h span (by simp)
    have hsub : span.start - base - c.utf8Size = span.start - (base + c.utf8Size) := by omega
    simp only [cutSpans, Text.takeBytes, Text.dropBytes]
    rw [if_pos (by omega), if_pos (by omega), hsub]
    rfl

/-- Text in front of all spans stays when they are cut out. -/
theorem cutSpans_append_of_le {base : Nat} (front : Text) {text : Text} {spans : List Span}
    (h : ∀ span ∈ spans, base + Text.size front ≤ span.start) :
    cutSpans base (front ++ text) spans
      = ((cutSpans (base + Text.size front) text spans).1,
        front ++ (cutSpans (base + Text.size front) text spans).2) := by
  induction front generalizing base with
  | nil => rfl
  | cons c front ih =>
    have hsum : base + Text.size (c :: front) = base + c.utf8Size + Text.size front :=
      (Nat.add_assoc _ _ _).symm
    rw [hsum] at h ⊢
    rw [List.cons_append, cutSpans_cons fun span hspan => Nat.le_of_add_right_le (h span hspan),
      ih h, List.cons_append]

/-- The first match is a block, and after it come the matches from its closing brace on. -/
theorem hitsFrom_of_first {name : String} {before ahead : Text} {d : Cursor}
    (h : (impl name).first some ⟨before.reverse, ahead⟩ = some d) :
    ∃ block rest, ahead = block ++ rest ∧ ImplBlock name before block rest ∧
      ((impl name).hitsFrom ⟨before.reverse, ahead⟩).map implSpan
        = ⟨Text.size before, Text.size (before ++ block)⟩ ::
          ((impl name).hitsFrom ⟨(before ++ block).reverse, rest⟩).map implSpan := by
  obtain ⟨block, rest, rfl, hblock, hcloses⟩ := exists_implBlock_of_first h
  refine ⟨block, rest, rfl, hblock, ?_⟩
  obtain ⟨_, hline, tail, hpass, htail⟩ := id hcloses
  -- the match takes some character, so it is the one that is reported
  have hshorter : d.ahead.length < (block ++ rest).length := by
    have hpos := List.length_pos_iff.2 hblock.ne_nil
    have hrest : rest = tail ++ d.ahead := hpass.1
    rw [hrest, List.length_append, List.length_append]
    omega
  have hfind : ((impl name).ends ⟨before.reverse, block ++ rest⟩).find?
      (fun e => e.ahead.length < (block ++ rest).length) = some d := by
    rw [first_some] at h
    obtain ⟨later, hlater⟩ := List.head?_eq_some_iff.1 h
    rw [hlater, List.find?_cons_of_pos (by simpa using hshorter)]
  have hnext : (impl name).hitsFrom ⟨(before ++ block).reverse, rest⟩ = (impl name).hitsFrom d := by
    rw [List.reverse_append]
    refine hitsFrom_of_passes hpass fun u v e huv hv hpass' => ?_
    obtain ⟨behind, ahead⟩ := e
    have hahead : rest = u ++ ahead := hpass'.1
    rw [hahead] at hline
    exact ends_impl_of_endsLine
      (Text.endsLine_of_append (fun x hx => htail x (by rw [huv]; simp [hx])) hline)
  have hspan : implSpan ⟨⟨before.reverse, block ++ rest⟩, d⟩
      = ⟨Text.size before, Text.size (before ++ block)⟩ := by
    rw [implSpan, hcloses.retreat_eq, Cursor.offset, Cursor.offset, Text.size_reverse,
      ← List.reverse_append, Text.size_reverse]
  rw [hitsFrom_eq, hfind, hnext, List.map_cons, hspan]

/-- A block is matched, and after it come the matches from its closing brace on. -/
theorem hitsFrom_block {name : String} (hname : Identifier.isUsable name = true)
    {before block rest : Text} (h : ImplBlock name before block rest) :
    ((impl name).hitsFrom ⟨before.reverse, block ++ rest⟩).map implSpan
      = ⟨Text.size before, Text.size (before ++ block)⟩ ::
        ((impl name).hitsFrom ⟨(before ++ block).reverse, rest⟩).map implSpan := by
  obtain ⟨d, hfirst⟩ := Option.ne_none_iff_exists'.1 (first_impl_ne_none h)
  obtain ⟨block', rest', heq, hblock', hhits⟩ := hitsFrom_of_first hfirst
  obtain ⟨rfl, rfl⟩ := h.unique hname hblock' heq
  exact hhits

theorem hitsFrom_skip {name : String} {before : Text} {c : Char} {rest : Text}
    (h : ∀ block after, c :: rest = block ++ after → ¬ ImplBlock name before block after) :
    (impl name).hitsFrom ⟨before.reverse, c :: rest⟩
      = (impl name).hitsFrom ⟨(before ++ [c]).reverse, rest⟩ := by
  rw [hitsFrom_eq, ends_impl_eq_nil h, List.find?_nil, List.reverse_append]
  rfl

/-- A piece that begins where the text does is cut out. -/
theorem cutSpans_append (base : Nat) (piece text : Text) (spans : List Span) :
    cutSpans base (piece ++ text) (⟨base, base + Text.size piece⟩ :: spans)
      = (piece :: (cutSpans (base + Text.size piece) text spans).1,
        (cutSpans (base + Text.size piece) text spans).2) := by
  have hdrop : Text.dropBytes 0 (piece ++ text) = piece ++ text := Text.dropBytes_size_append [] _
  simp only [cutSpans, Nat.sub_self, Nat.add_sub_cancel_left, Text.takeBytes_zero, hdrop,
    Text.takeBytes_size_append, Text.dropBytes_size_append, List.nil_append]

/-- The blocks that are taken are cut out by the matches of the shape. -/
theorem Carves.cutSpans_hitsFrom {name : String} (hname : Identifier.isUsable name = true)
    {before ahead : Text} {pieces : List Text} {left : Text}
    (h : Carves name before ahead pieces left) :
    cutSpans (Text.size before) ahead
      (((impl name).hitsFrom ⟨before.reverse, ahead⟩).map implSpan) = (pieces, left) := by
  induction h with
  | @done before =>
    rw [hitsFrom_eq, ends_impl_of_endsLine rfl]
    rfl
  | @skip before c rest pieces left hnone _ ih =>
    have hsize : Text.size (before ++ [c]) = Text.size before + c.utf8Size := by
      rw [Text.size_append]
      rfl
    have hstarts : ∀ span ∈ ((impl name).hitsFrom ⟨(before ++ [c]).reverse, rest⟩).map implSpan,
        Text.size before + c.utf8Size ≤ span.start := by
      intro span hspan
      obtain ⟨hit, hhit, rfl⟩ := List.mem_map.1 hspan
      have hstart := offset_le_of_mem_hitsFrom hhit
      rwa [Cursor.offset, Text.size_reverse, hsize] at hstart
    rw [hitsFrom_skip hnone, cutSpans_cons hstarts, ← hsize, ih]
  | @take before block rest pieces left hblock _ ih =>
    rw [Text.size_append] at ih
    rw [hitsFrom_block hname hblock, Text.size_append, cutSpans_append, ih]

/-- All impl blocks of a name are cut out, each where it begins. -/
theorem Carves.cutSpans_eq {name : String} (hname : Identifier.isUsable name = true) {text : Text}
    {pieces : List Text} {left : Text} (h : Carves name [] text pieces left) :
    cutSpans 0 text (locateImpls text name) = (pieces, left) := by
  rw [locateImpls, findAll_eq_hitsFrom]
  exact h.cutSpans_hitsFrom hname

end Carver
