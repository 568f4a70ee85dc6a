import Carver.Toml.Strings

/-!
# Quoted texts are read back

Whatever form a text is written in, it is read back from it (`readQuoted_quote`,
`readKey_quoteKey`). Each character is written as a word that stands for it (`StandsFor`), and a
reader takes one such word after the other. On several lines quotation marks stand for themselves
as long as no more than two of them meet, so that the closing marks are found, with those of the
text in front of them (`closing?_append`).
-/

namespace Carver.Toml

/-! ## Characters -/

/-- The word stands for the character where escapes are read. -/
inductive StandsFor : Text → Char → Prop
  | named {letter c : Char} : namedChar? letter = some c → StandsFor ['\\', letter] c
  | numbered {a b c d held : Char} : hexChar? [a, b, c, d] = some held →
      StandsFor ['\\', 'u', a, b, c, d] held
  | plain {c : Char} : isControl c = false → c ≠ '\\' → c ≠ '"' → StandsFor [c] c

theorem hexChar?_upperHex :
    ∀ n : Fin 128, hexChar? ['0', '0', upperHex (n / 16), upperHex (n % 16)]
      = some (Char.ofNat n) := by
  decide

theorem toNat_lt_of_isControl {c : Char} (h : isControl c = true) : c.toNat < 128 := by
  simp only [isControl, Bool.or_eq_true, Bool.and_eq_true, decide_eq_true_eq, beq_iff_eq] at h
  omega

/-- The escape of a character, or the character itself, stands for it. -/
theorem standsFor_escape? {c : Char} (h : c ≠ '"') : StandsFor ((escape? c).getD [c]) c := by
  unfold escape?
  split
  case h_6 hb ht hf hr hs =>
    split
    · rename_i hcontrol
      have hnumber := hexChar?_upperHex ⟨c.toNat, toNat_lt_of_isControl hcontrol⟩
      rw [Char.ofNat_toNat] at hnumber
      exact .numbered hnumber
    · rename_i hcontrol
      exact .plain (Bool.eq_false_iff.2 hcontrol) hs h
  all_goals exact .named rfl

theorem mem_of_namedChar? {letter c : Char} (h : namedChar? letter = some c) :
    letter ∈ ['b', 't', 'n', 'f', 'r', '"', '\\'] := by
  unfold namedChar? at h
  split at h
  case h_8 => cases h
  all_goals simp

theorem readBasic_append {word : Text} {c : Char} (h : StandsFor word c) (hbreak : word ≠ ['\n'])
    (rest : Text) : readBasic (word ++ rest) = consRead c (readBasic rest) := by
  cases h with
  | named hnamed =>
    have hletter := mem_of_namedChar? hnamed
    simp only [List.mem_cons, List.not_mem_nil, or_false] at hletter
    rcases hletter with rfl | rfl | rfl | rfl | rfl | rfl | rfl <;> cases hnamed <;> rfl
  | numbered hnumbered =>
    simp only [List.cons_append, List.nil_append, readBasic, hnumbered]
    rfl
  | plain hcontrol hslash hquote =>
    have hline : c ≠ '\n' := fun heq => hbreak (by rw [heq])
    simp [readBasic, hcontrol, hslash, hline]

theorem closing?_of_ne {mark c : Char} (h : c ≠ mark) (rest : Text) :
    closing? mark (c :: rest) = none := by
  simp [closing?, h]

theorem readMultilineBasic_cons {c : Char} (hreturn : c ≠ '\r') (hslash : c ≠ '\\') (rest : Text) :
    readMultilineBasic false (c :: rest) =
      match closing? '"' (c :: rest) with
      | some done => some done
      | none => if isControl c then none else consRead c (readMultilineBasic false rest) := by
  rw [readMultilineBasic]
  case x_1 => exact fun _ heq => absurd heq hreturn
  case x_2 => exact fun _ _ _ _ _ heq => absurd heq hslash
  case x_3 => exact fun _ _ _ _ _ _ _ _ _ heq => absurd heq hslash
  case x_4 => exact fun _ _ heq => absurd heq hslash
  cases hclosing : closing? '"' (c :: rest) <;>
    simp only [Bool.false_and, Bool.false_eq_true, if_false, hslash, decide_false, Bool.or_false]

theorem readMultilineBasic_append {word : Text} {c : Char} (h : StandsFor word c) (rest : Text) :
    readMultilineBasic false (word ++ rest) = consRead c (readMultilineBasic false rest) := by
  cases h with
  | named hnamed =>
    have hletter := mem_of_namedChar? hnamed
    simp only [List.mem_cons, List.not_mem_nil, or_false] at hletter
    rcases hletter with rfl | rfl | rfl | rfl | rfl | rfl | rfl <;> cases hnamed <;> rfl
  | numbered hnumbered =>
    simp only [List.cons_append, List.nil_append, readMultilineBasic, hnumbered]
    rfl
  | plain hcontrol hslash hquote =>
    have hreturn : c ≠ '\r' := by
      rintro rfl
      cases hcontrol
    rw [List.singleton_append, readMultilineBasic_cons hreturn hslash, closing?_of_ne hquote]
    simp [hcontrol]

/-! ## Texts on one line -/

theorem readBasic_escapeLine (text rest : Text) :
    readBasic (escapeLine text ++ '"' :: rest) = some (text, rest) := by
  induction text with
  | nil => rfl
  | cons c text ih =>
    rw [escapeLine, List.flatMap_cons, List.append_assoc]
    change readBasic (_ ++ (escapeLine text ++ '"' :: rest)) = _
    split
    · rename_i hline
      rw [readBasic_append (.named (c := '\n') rfl) (by simp), ih, hline]
      rfl
    · rename_i hline
      split
      · rename_i hquote
        rw [readBasic_append (.named (c := '"') rfl) (by simp), ih, hquote]
        rfl
      · rename_i hquote
        have hword := standsFor_escape? hquote
        have hbreak : (escape? c).getD [c] ≠ ['\n'] := by
          intro heq
          rw [heq] at hword
          cases hword with
          | plain => exact hline rfl
        rw [readBasic_append hword hbreak, ih]
        rfl

theorem readLiteral_append {text : Text} (h : QuoteForm.literal.holds text = true) (rest : Text) :
    readLiteral (text ++ '\'' :: rest) = some (text, rest) := by
  rw [QuoteForm.holds, List.all_eq_true] at h
  induction text with
  | nil => rfl
  | cons c text ih =>
    rw [List.forall_mem_cons] at h
    simp only [Bool.and_eq_true, Bool.not_eq_true', bne_iff_ne] at h
    obtain ⟨⟨⟨hcontrol, hline⟩, hmark⟩, hrest⟩ := h
    have hread := ih (by simpa using hrest)
    simp [readLiteral, hcontrol, hline, hread, consRead]

/-! ## Texts on several lines -/

/-- Behind `run` marks that stand for themselves no more than two meet: what is written is the rest
of the text, all of it marks, or something else comes after them. -/
inductive EndsRun (mark : Char) (run : Nat) : Text → Text → Prop
  | all {n : Nat} : run + n ≤ 2 → EndsRun mark run (.replicate n mark) (.replicate n mark)
  | other {n : Nat} {text : Text} {x : Char} {later : Text} : run + n ≤ 2 → x ≠ mark →
      EndsRun mark run text (.replicate n mark ++ x :: later)

theorem EndsRun.cons {mark : Char} {run : Nat} {text written : Text}
    (h : EndsRun mark (run + 1) text written) :
    EndsRun mark run (mark :: text) (mark :: written) := by
  cases h with
  | @all n hrun => exact .all (n := n + 1) (by omega)
  | @other n _ x later hrun hx => exact .other (n := n + 1) (by omega) hx

theorem closing?_replicate {mark : Char} {n : Nat} {rest : Text} (hrest : rest.head? ≠ some mark) :
    closing? mark (List.replicate n mark ++ rest)
      = if n < 3 then none
        else some (List.replicate (min (n - 3) 2) mark,
          (List.replicate n mark ++ rest).drop (min (n - 3) 2 + 3)) := by
  have hmarks : ((List.replicate n mark ++ rest).takeWhile (· == mark)).length = n := by
    rw [List.takeWhile_append_of_pos (by simp)]
    cases rest with
    | nil => simp
    | cons x rest =>
      rw [List.takeWhile_cons_of_neg (by simpa using hrest)]
      simp
  simp only [closing?, hmarks]

theorem closing?_marks {mark : Char} {rest : Text} (hrest : rest.head? ≠ some mark) :
    closing? mark (mark :: mark :: mark :: rest) = some ([], rest) :=
  closing?_replicate (n := 3) hrest

/-- The closing marks are found where they are, with the marks of the text in front of them. -/
theorem closing?_append {mark : Char} {run : Nat} {text written rest : Text}
    (h : EndsRun mark (run + 1) text written) (hrest : rest.head? ≠ some mark) :
    closing? mark (mark :: (written ++ mark :: mark :: mark :: rest)) = none ∨
      closing? mark (mark :: (written ++ mark :: mark :: mark :: rest))
        = some (mark :: text, rest) := by
  cases h with
  | @all n hrun =>
    right
    have hwritten : mark :: (List.replicate n mark ++ mark :: mark :: mark :: rest)
        = List.replicate (n + 4) mark ++ rest := by
      have hmarks : mark :: mark :: mark :: rest = List.replicate 3 mark ++ rest := rfl
      rw [hmarks, ← List.append_assoc, List.replicate_append_replicate, ← List.cons_append,
        ← List.replicate_succ]
    have hinner : min (n + 4 - 3) 2 = n + 1 := by omega
    rw [hwritten, closing?_replicate hrest, if_neg (by omega), hinner,
      List.drop_append_of_le_length, List.drop_of_length_le]
    all_goals simp [List.replicate_succ]
  | @other n _ x later hrun hx =>
    left
    have hwritten : mark :: ((List.replicate n mark ++ x :: later) ++ mark :: mark :: mark :: rest)
        = List.replicate (n + 1) mark ++ x :: (later ++ mark :: mark :: mark :: rest) := by
      simp [List.replicate_succ]
    rw [hwritten, closing?_replicate (by simpa using hx), if_pos (by omega)]

theorem StandsFor.exists_cons {word : Text} {c : Char} (h : StandsFor word c) :
    ∃ x tail, word = x :: tail ∧ x ≠ '"' := by
  cases h with
  | named _ => exact ⟨'\\', _, rfl, by decide⟩
  | numbered _ => exact ⟨'\\', _, rfl, by decide⟩
  | plain _ _ hquote => exact ⟨c, [], rfl, hquote⟩

theorem endsRun_escapeLines {run : Nat} (hrun : run ≤ 2) (text : Text) :
    EndsRun '"' run text (escapeLines run text) := by
  induction text generalizing run with
  | nil => exact .all (n := 0) hrun
  | cons c text ih =>
    rw [escapeLines]
    split
    · rename_i hquote
      split
      · exact .other (n := 0) hrun (by decide)
      · rw [hquote]
        exact (ih (by omega)).cons
    · rename_i hquote
      obtain ⟨x, tail, hword, hx⟩ := (standsFor_escape? hquote).exists_cons
      rw [hword]
      exact .other (n := 0) hrun hx

theorem readMultilineBasic_escapeLines {run : Nat} (hrun : run ≤ 2) (text : Text) {rest : Text}
    (hrest : rest.head? ≠ some '"') :
    readMultilineBasic false (escapeLines run text ++ '"' :: '"' :: '"' :: rest)
      = some (text, rest) := by
  induction text generalizing run with
  | nil =>
    rw [escapeLines, List.nil_append, readMultilineBasic_cons (by decide) (by decide),
      closing?_marks hrest]
  | cons c text ih =>
    rw [escapeLines]
    split
    · rename_i hquote
      subst hquote
      split
      · rw [List.append_assoc, readMultilineBasic_append (.named rfl), ih (by omega)]
        rfl
      · have hrun' : run + 1 ≤ 2 := by omega
        rw [List.cons_append, readMultilineBasic_cons (by decide) (by decide)]
        rcases closing?_append (endsRun_escapeLines hrun' text) hrest with hclosing | hclosing
        · rw [hclosing, ih (by omega)]
          rfl
        · rw [hclosing]
    · rename_i hquote
      rw [List.append_assoc, readMultilineBasic_append (standsFor_escape? hquote), ih (by omega)]
      rfl

/-- The marks that are open count towards the longest run. -/
theorem le_longestRun_go (mark : Char) (longest run : Nat) (text : Text) :
    run ≤ longestRun.go mark longest run text ∧ longest ≤ longestRun.go mark longest run text := by
  induction text generalizing longest run with
  | nil =>
    rw [longestRun.go]
    omega
  | cons c text ih =>
    rw [longestRun.go]
    split
    · have hgo := ih longest (run + 1)
      omega
    · have hgo := ih (max longest run) 0
      omega

theorem endsRun_of_longestRun {mark : Char} {longest run : Nat} {text : Text}
    (h : longestRun.go mark longest run text ≤ 2) : EndsRun mark run text text := by
  induction text generalizing run with
  | nil => exact .all (n := 0) (Nat.le_trans (le_longestRun_go mark longest run []).1 h)
  | cons c text ih =>
    rw [longestRun.go] at h
    split at h
    · rename_i hmark
      rw [hmark]
      exact (ih h).cons
    · rename_i hmark
      have hrun := (le_longestRun_go mark (max longest run) 0 text).2
      exact .other (n := 0) (by omega) hmark

theorem readMultilineLiteral_cons {c : Char} (hreturn : c ≠ '\r') (rest : Text) :
    readMultilineLiteral (c :: rest) =
      match closing? '\'' (c :: rest) with
      | some done => some done
      | none => if isControl c then none else consRead c (readMultilineLiteral rest) := by
  rw [readMultilineLiteral.eq_def]
  split
  · rename_i heq
    cases heq
  · rename_i heq
    exact absurd (List.cons.inj heq).1 hreturn
  · rename_i heq
    cases heq
    rfl

theorem readMultilineLiteral_append {text rest : Text} {longest run : Nat}
    (hcontrol : ∀ c ∈ text, isControl c = false)
    (hruns : longestRun.go '\'' longest run text ≤ 2) (hrest : rest.head? ≠ some '\'') :
    readMultilineLiteral (text ++ '\'' :: '\'' :: '\'' :: rest) = some (text, rest) := by
  induction text generalizing longest run with
  | nil =>
    rw [List.nil_append, readMultilineLiteral_cons (by decide), closing?_marks hrest]
  | cons c text ih =>
    rw [List.forall_mem_cons] at hcontrol
    have hreturn : c ≠ '\r' := by
      rintro rfl
      cases hcontrol.1
    rw [longestRun.go] at hruns
    rw [List.cons_append, readMultilineLiteral_cons hreturn]
    split at hruns
    · rename_i hmark
      subst hmark
      rcases closing?_append (endsRun_of_longestRun hruns) hrest with hclosing | hclosing
      · rw [hclosing, ih hcontrol.2 hruns]
        rfl
      · rw [hclosing]
    · rename_i hmark
      rw [closing?_of_ne hmark, ih hcontrol.2 hruns]
      simp [hcontrol.1, consRead]

/-! ## Quoted texts -/

/-- What follows does not begin with a mark. -/
def NoMark (rest : Text) : Prop :=
  rest.head? ≠ some '"' ∧ rest.head? ≠ some '\''

theorem afterBreak?_of_ne {c : Char} (hline : c ≠ '\n') (hreturn : c ≠ '\r') (rest : Text) :
    afterBreak? (c :: rest) = none := by
  rw [afterBreak?]
  · exact fun _ heq => hline (List.cons.inj heq).1
  · exact fun _ heq => hreturn (List.cons.inj heq).1

/-- The line break behind the opening marks is dropped, which is there if the text has one. -/
theorem dropBreak_append {text inner : Text} {mark : Char} (hmark : mark = '"' ∨ mark = '\'')
    (h : ∀ x ∈ inner.head?, x ≠ '\r' ∧ (x = '\n' → '\n' ∈ text)) (rest : Text) :
    dropBreak ((if text.contains '\n' then ['\n'] else []) ++ (inner ++ mark :: rest))
      = inner ++ mark :: rest := by
  split
  · rfl
  · rename_i hline
    rw [List.contains_iff_mem] at hline
    rw [List.nil_append]
    cases inner with
    | nil => rcases hmark with rfl | rfl <;> rfl
    | cons x inner =>
      obtain ⟨hreturn, hbreak⟩ := h x rfl
      rw [List.cons_append, dropBreak, afterBreak?_of_ne (fun heq => hline (hbreak heq)) hreturn]
      rfl

theorem head?_escapeLines (run : Nat) (text : Text) :
    ∀ x ∈ (escapeLines run text).head?, x ≠ '\r' ∧ (x = '\n' → '\n' ∈ text) := by
  cases text with
  | nil => simp [escapeLines]
  | cons c text =>
    rw [escapeLines]
    split
    · split <;> simp
    · rename_i hquote
      have hword := standsFor_escape? hquote
      generalize (escape? c).getD [c] = word at hword
      cases hword with
      | named _ => simp
      | numbered _ => simp
      | plain hcontrol _ _ =>
        have hreturn : c ≠ '\r' := by
          rintro rfl
          cases hcontrol
        simp +contextual [hreturn]

theorem readQuoted_basic {body : Text} (h : ∀ rest, body ≠ '"' :: '"' :: rest) :
    readQuoted ('"' :: body) = readBasic body := by
  rw [readQuoted]
  exact fun rest heq => absurd heq (h rest)

theorem readQuoted_literal {body : Text} (h : ∀ rest, body ≠ '\'' :: '\'' :: rest) :
    readQuoted ('\'' :: body) = readLiteral body := by
  rw [readQuoted]
  exact fun rest heq => absurd heq (h rest)

theorem head?_escapeLine (text : Text) : ∀ x ∈ (escapeLine text).head?, x ≠ '"' := by
  cases text with
  | nil => simp [escapeLine]
  | cons c text =>
    rw [escapeLine, List.flatMap_cons]
    split
    · simp
    · split
      · simp
      · rename_i hquote
        obtain ⟨x, tail, hword, hx⟩ := (standsFor_escape? hquote).exists_cons
        simpa [hword] using hx

/-- A text without a mark in front does not make two marks of the closing one. -/
theorem append_cons_ne_marks {mark : Char} {body rest : Text} (hbody : ∀ x ∈ body.head?, x ≠ mark)
    (hrest : rest.head? ≠ some mark) (last : Text) :
    body ++ mark :: rest ≠ mark :: mark :: last := by
  intro heq
  cases body with
  | nil =>
    rw [(List.cons.inj heq).2] at hrest
    exact hrest rfl
  | cons x body => exact hbody x rfl (List.cons.inj heq).1

/-- A text is read back from each form that can hold it, and from those with escapes. -/
theorem readQuoted_write {text rest : Text} {form : QuoteForm}
    (hform : form = .basic ∨ form = .multilineBasic ∨ form.holds text = true)
    (hrest : NoMark rest) : readQuoted (form.write text ++ rest) = some (text, rest) := by
  cases form with
  | basic =>
    have hword := append_cons_ne_marks (head?_escapeLine text) hrest.1
    rw [← readBasic_escapeLine text rest, ← readQuoted_basic hword, QuoteForm.write]
    simp [QuoteForm.marks, QuoteForm.body]
  | literal =>
    have hholds : QuoteForm.literal.holds text = true := by simpa using hform
    have hhead : ∀ x ∈ text.head?, x ≠ '\'' := by
      rw [QuoteForm.holds, List.all_eq_true] at hholds
      intro x hx
      have hx := hholds x (List.mem_of_mem_head? hx)
      simp only [Bool.and_eq_true, bne_iff_ne] at hx
      exact hx.2
    have hword := append_cons_ne_marks hhead hrest.2
    rw [← readLiteral_append hholds rest, ← readQuoted_literal hword, QuoteForm.write]
    simp [QuoteForm.marks, QuoteForm.body]
  | multilineBasic =>
    have hread := readMultilineBasic_escapeLines (Nat.zero_le 2) text hrest.1
    have hdrop := dropBreak_append (.inl rfl) (head?_escapeLines 0 text) ('"' :: '"' :: rest)
    rw [← hread, ← hdrop]
    simp [QuoteForm.write, QuoteForm.marks, QuoteForm.body, readQuoted]
  | multilineLiteral =>
    have hholds : QuoteForm.multilineLiteral.holds text = true := by simpa using hform
    simp only [QuoteForm.holds, Bool.and_eq_true, List.all_eq_true, Bool.not_eq_true',
      decide_eq_true_eq] at hholds
    have hread := readMultilineLiteral_append hholds.1 hholds.2 hrest.2
    have hhead : ∀ x ∈ text.head?, x ≠ '\r' ∧ (x = '\n' → '\n' ∈ text) := by
      intro x hx
      have hmem := List.mem_of_mem_head? hx
      refine ⟨?_, fun heq => heq ▸ hmem⟩
      rintro rfl
      cases hholds.1 _ hmem
    have hdrop := dropBreak_append (.inr rfl) hhead ('\'' :: '\'' :: rest)
    rw [← hread, ← hdrop]
    simp [QuoteForm.write, QuoteForm.marks, QuoteForm.body, readQuoted]

theorem choose_cases (text : Text) : QuoteForm.choose text = .basic ∨
    QuoteForm.choose text = .multilineBasic ∨ (QuoteForm.choose text).holds text = true := by
  rw [QuoteForm.choose]
  split
  · rename_i form hfind
    exact .inr (.inr (List.find?_some hfind))
  · split
    · exact .inr (.inl rfl)
    · exact .inl rfl

/-- Every text is read back as it was. -/
theorem readQuoted_quote (text : Text) {rest : Text} (hrest : NoMark rest) :
    readQuoted (quote text ++ rest) = some (text, rest) :=
  readQuoted_write (choose_cases text) hrest

theorem exists_quote (text : Text) : ∃ c tail, quote text = c :: tail ∧ (c = '"' ∨ c = '\'') := by
  rw [quote, QuoteForm.write]
  cases QuoteForm.choose text
  · exact ⟨_, _, rfl, .inl rfl⟩
  · exact ⟨_, _, rfl, .inr rfl⟩
  · exact ⟨_, _, rfl, .inl rfl⟩
  · exact ⟨_, _, rfl, .inr rfl⟩

/-! ## Keys -/

theorem quoteKey_cases (text : Text) :
    text ≠ [] ∧ (∀ c ∈ text, isBare c = true) ∧ quoteKey text = text ∨
      quoteKey text = QuoteForm.basic.write text ∨
      QuoteForm.literal.holds text = true ∧ quoteKey text = QuoteForm.literal.write text := by
  rw [quoteKey]
  split
  · rename_i hbare
    simp only [Bool.and_eq_true, Bool.not_eq_true', List.isEmpty_eq_false_iff,
      List.all_eq_true] at hbare
    exact .inl ⟨hbare.1, hbare.2, rfl⟩
  · rw [QuoteForm.chooseOneLine, List.find?_cons, List.find?_cons, List.find?_nil]
    split
    · exact .inr (.inl rfl)
    · split
      · exact .inr (.inr ⟨‹_›, rfl⟩)
      · exact .inr (.inl rfl)

/-- Every key is read back as it was. -/
theorem readKey_quoteKey (text : Text) {rest : Text} (hrest : ∀ c ∈ rest.head?, isBare c = false) :
    readKey (quoteKey text ++ rest) = some (text, rest) := by
  rcases quoteKey_cases text with ⟨hne, hbare, hkey⟩ | hkey | ⟨hholds, hkey⟩
  · have hstop : rest.takeWhile isBare = [] ∧ rest.dropWhile isBare = rest := by
      cases rest with
      | nil => exact ⟨rfl, rfl⟩
      | cons c rest => simp [hrest c rfl]
    have hmark : ∀ mark tail, isBare mark = false → text ++ rest ≠ mark :: tail := by
      intro mark tail hmark heq
      obtain ⟨c, chars, rfl⟩ := List.exists_cons_of_ne_nil hne
      rw [(List.cons.inj heq).1.symm, hbare c (by simp)] at hmark
      cases hmark
    rw [hkey, readKey, List.takeWhile_append_of_pos hbare, List.dropWhile_append_of_pos hbare,
      hstop.1, hstop.2, List.append_nil]
    · simp [hne]
    · exact fun tail => hmark '"' tail (by decide)
    · exact fun tail => hmark '\'' tail (by decide)
  · rw [hkey, ← readBasic_escapeLine text rest]
    simp [QuoteForm.write, QuoteForm.marks, QuoteForm.body, readKey]
  · rw [hkey, ← readLiteral_append hholds rest]
    simp [QuoteForm.write, QuoteForm.marks, QuoteForm.body, readKey]

theorem exists_quoteKey (text : Text) :
    ∃ c tail, quoteKey text = c :: tail ∧ (isBare c = true ∨ c = '"' ∨ c = '\'') := by
  rcases quoteKey_cases text with ⟨hne, hbare, hkey⟩ | hkey | ⟨_, hkey⟩
  · obtain ⟨c, tail, rfl⟩ := List.exists_cons_of_ne_nil hne
    exact ⟨c, tail, hkey, .inl (hbare c (by simp))⟩
  · exact ⟨_, _, hkey, .inr (.inl rfl)⟩
  · exact ⟨_, _, hkey, .inr (.inr rfl)⟩

end Carver.Toml
