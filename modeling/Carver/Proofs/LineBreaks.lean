import Carver.Proofs.Blocks

/-!
# Texts with carriage returns

`Text.crlf` puts a carriage return in front of every line feed. A cut through the result is a cut
through the text, unless it separates the two characters of a line break (`exists_split_crlf`).
Braces are counted on both texts alike, so a block is cut out of both in step
(`extractFrom?_crlf`).
-/

namespace Carver

namespace Text

/-- The text with a carriage return in front of every line feed. -/
def crlf (text : Text) : Text :=
  text.flatMap fun c => if c = '\n' then ['\r', '\n'] else [c]

/-- The text without its carriage returns. -/
def lf (text : Text) : Text :=
  text.filter (· != '\r')

@[simp] theorem crlf_nil : crlf [] = [] :=
  rfl

@[simp] theorem crlf_append (a b : Text) : crlf (a ++ b) = crlf a ++ crlf b :=
  List.flatMap_append

theorem crlf_flatten (words : List Text) : crlf words.flatten = (words.map crlf).flatten := by
  induction words with
  | nil => rfl
  | cons first words ih => rw [List.flatten_cons, crlf_append, ih, List.map_cons, List.flatten_cons]

theorem crlf_cons_newline (rest : Text) : crlf ('\n' :: rest) = '\r' :: '\n' :: crlf rest :=
  rfl

theorem crlf_cons {c : Char} (h : c ≠ '\n') (rest : Text) : crlf (c :: rest) = c :: crlf rest := by
  rw [crlf, List.flatMap_cons, if_neg h]
  rfl

@[simp] theorem lf_append (a b : Text) : lf (a ++ b) = lf a ++ lf b :=
  List.filter_append a b

/-- A text without carriage returns comes back. -/
theorem lf_crlf {text : Text} (h : '\r' ∉ text) : lf (crlf text) = text := by
  induction text with
  | nil => rfl
  | cons c rest ih =>
    rw [List.mem_cons, not_or] at h
    have hc : (c != '\r') = true := by simpa using Ne.symm h.1
    by_cases hbreak : c = '\n'
    · subst hbreak
      rw [crlf_cons_newline, lf, List.filter_cons_of_neg (by decide),
        List.filter_cons_of_pos (by decide), ← lf, ih h.2]
    · rw [crlf_cons hbreak, lf, List.filter_cons, if_pos hc, ← lf, ih h.2]

/-- Without line feeds nothing is put in. -/
theorem crlf_of_not_mem {text : Text} (h : '\n' ∉ text) : crlf text = text := by
  induction text with
  | nil => rfl
  | cons c rest ih =>
    rw [List.mem_cons, not_or] at h
    rw [crlf_cons (Ne.symm h.1), ih h.2]

theorem lf_of_not_mem {text : Text} (h : '\r' ∉ text) : lf text = text := by
  refine List.filter_eq_self.2 fun c hc => ?_
  rw [bne_iff_ne]
  rintro rfl
  exact h hc

theorem mem_crlf {c : Char} {text : Text} :
    c ∈ crlf text ↔ c ∈ text ∨ c = '\r' ∧ '\n' ∈ text := by
  rw [crlf, List.mem_flatMap]
  constructor
  · rintro ⟨d, hd, hc⟩
    split at hc
    · rename_i hbreak
      subst hbreak
      simp only [List.mem_cons, List.not_mem_nil, or_false] at hc
      rcases hc with rfl | rfl
      · exact .inr ⟨rfl, hd⟩
      · exact .inl hd
    · rw [List.mem_singleton.1 hc]
      exact .inl hd
  · rintro (hc | ⟨rfl, hbreak⟩)
    · refine ⟨c, hc, ?_⟩
      split <;> simp_all
    · exact ⟨'\n', hbreak, by simp⟩

theorem crlf_eq_nil_iff {text : Text} : crlf text = [] ↔ text = [] := by
  constructor
  · intro h
    cases text with
    | nil => rfl
    | cons c rest =>
      have hmem : c ∈ crlf (c :: rest) := mem_crlf.2 (.inl (by simp))
      rw [h] at hmem
      simp at hmem
  · rintro rfl
    rfl

@[simp] theorem getLast?_crlf (text : Text) : (crlf text).getLast? = text.getLast? := by
  rcases List.eq_nil_or_concat text with rfl | ⟨front, c, rfl⟩
  · rfl
  · rw [List.concat_eq_append, crlf_append, List.getLast?_append, List.getLast?_append]
    by_cases hbreak : c = '\n'
    · subst hbreak
      rfl
    · rw [crlf_cons hbreak]
      rfl

theorem getLast?_cons_of_some {c d : Char} {text : Text} (h : text.getLast? = some d) :
    (c :: text).getLast? = some d := by
  rw [List.getLast?_cons, h, Option.getD_some]

/-- A cut that does not separate the two characters of a line break is a cut of the text. -/
theorem exists_split_crlf {text a b : Text} (h : crlf text = a ++ b)
    (hseam : a.getLast? = some '\r' → b.head? ≠ some '\n') :
    ∃ x y, text = x ++ y ∧ a = crlf x ∧ b = crlf y := by
  induction text generalizing a with
  | nil =>
    obtain ⟨rfl, rfl⟩ := List.append_eq_nil_iff.1 h.symm
    exact ⟨[], [], rfl, rfl, rfl⟩
  | cons c rest ih =>
    rcases a with _ | ⟨d, a⟩
    · exact ⟨[], c :: rest, rfl, rfl, h.symm⟩
    by_cases hbreak : c = '\n'
    · subst hbreak
      rw [crlf_cons_newline, List.cons_append, List.cons.injEq] at h
      obtain ⟨rfl, h⟩ := h
      rcases a with _ | ⟨e, a⟩
      · rw [List.nil_append] at h
        exact absurd (by rw [← h, List.head?_cons]) (hseam rfl)
      · rw [List.cons_append, List.cons.injEq] at h
        obtain ⟨rfl, h⟩ := h
        obtain ⟨x, y, rfl, rfl, rfl⟩ := ih h fun hlast =>
          hseam (getLast?_cons_of_some (getLast?_cons_of_some hlast))
        exact ⟨'\n' :: x, y, rfl, (crlf_cons_newline x).symm, rfl⟩
    · rw [crlf_cons hbreak, List.cons_append, List.cons.injEq] at h
      obtain ⟨rfl, h⟩ := h
      obtain ⟨x, y, rfl, rfl, rfl⟩ := ih h fun hlast => hseam (getLast?_cons_of_some hlast)
      exact ⟨c :: x, y, rfl, (crlf_cons hbreak x).symm, rfl⟩

/-- Of two beginnings of a text the one with fewer bytes is a beginning of the other. -/
theorem prefix_of_size_le {x y text : Text} (hx : x <+: text) (hy : y <+: text)
    (h : size x ≤ size y) : x <+: y := by
  rcases List.prefix_or_prefix_of_prefix hx hy with hprefix | ⟨rest, rfl⟩
  · exact hprefix
  · rw [size_append] at h
    cases rest with
    | nil => simp
    | cons c rest =>
      have hpos := c.utf8Size_pos
      rw [size] at h
      omega

theorem size_crlf_le {x y : Text} (h : x <+: y) : size (crlf x) ≤ size (crlf y) := by
  obtain ⟨rest, rfl⟩ := h
  rw [crlf_append, size_append]
  omega

/-- A run that passes line breaks is the same run on both texts. -/
theorem span_crlf (accepts : Char → Bool) (hreturn : accepts '\r' = true)
    (hfeed : accepts '\n' = true) (text : Text) :
    (crlf text).takeWhile accepts = crlf (text.takeWhile accepts) ∧
      (crlf text).dropWhile accepts = crlf (text.dropWhile accepts) := by
  induction text with
  | nil => exact ⟨rfl, rfl⟩
  | cons c rest ih =>
    by_cases hbreak : c = '\n'
    · subst hbreak
      simp only [crlf_cons_newline, List.takeWhile_cons_of_pos, List.dropWhile_cons_of_pos, hreturn,
        hfeed, ih, and_self]
    · by_cases hc : accepts c = true
      · simp only [crlf_cons hbreak, List.takeWhile_cons_of_pos hc, List.dropWhile_cons_of_pos hc,
          ih, and_self]
      · simp only [crlf_cons hbreak, List.takeWhile_cons_of_neg hc, List.dropWhile_cons_of_neg hc,
          crlf_nil, and_self]

end Text

open Text (crlf)

/-! ## Blocks -/

namespace Braces

theorem close_cons_of_ne {depth : Nat} {c : Char} (hopening : c ≠ '{') (hclosing : c ≠ '}')
    {rest : Text} : close depth (c :: rest)
      = (close depth rest).map fun (block, after) => (c :: block, after) := by
  rw [close, if_neg hopening, if_neg hclosing]

theorem close_crlf (depth : Nat) (text : Text) :
    close depth (crlf text) = (close depth text).map (Prod.map crlf crlf) := by
  induction text generalizing depth with
  | nil => rfl
  | cons c rest ih =>
    by_cases hbreak : c = '\n'
    · subst hbreak
      rw [Text.crlf_cons_newline, close_cons_of_ne (by decide) (by decide),
        close_cons_of_ne (by decide) (by decide), close_cons_of_ne (by decide) (by decide), ih]
      simp only [Option.map_map]
      rfl
    · rw [Text.crlf_cons hbreak, close, close]
      have hcons : ∀ n, (close n (crlf rest)).map (fun pair => (c :: pair.1, pair.2))
          = ((close n rest).map fun pair => (c :: pair.1, pair.2)).map (Prod.map crlf crlf) := by
        intro n
        rw [ih, Option.map_map, Option.map_map]
        refine congrArg (Option.map · _) (funext fun pair => ?_)
        simp only [Function.comp_apply, Prod.map, Text.crlf_cons hbreak]
      split
      · exact hcons _
      · split
        · split
          · rw [Option.map_some, Prod.map, Text.crlf_cons hbreak, Text.crlf_nil]
          · exact hcons _
        · exact hcons _

/-- The first block of a text with carriage returns. -/
theorem firstBlock_crlf (text : Text) :
    firstBlock (crlf text) = (firstBlock text).map fun (front, block, after) =>
      (crlf front, crlf block, crlf after) := by
  obtain ⟨htake, hdrop⟩ := Text.span_crlf (· != '{') rfl rfl text
  rw [firstBlock, firstBlock, htake, hdrop]
  cases hrest : text.dropWhile (· != '{') with
  | nil => rfl
  | cons c rest =>
    have hc : c = '{' := by
      have hhead := List.head?_dropWhile_not (· != '{') text
      rw [hrest] at hhead
      simpa using hhead
    subst hc
    rw [Text.crlf_cons (by decide)]
    simp only [close_crlf, Option.map_map]
    rfl

end Braces

/-- What is cut out of a text with carriage returns, and what is left of it. -/
def Extraction.crlf (e : Extraction) : Extraction :=
  ⟨e.text.crlf, e.remaining.crlf⟩

/-- From the same place on, the same block is cut out. -/
theorem extractFrom?_crlf (before rest : Text) :
    extractFrom? (crlf (before ++ rest)) (Text.size (crlf before))
      = (extractFrom? (before ++ rest) (Text.size before)).map Extraction.crlf := by
  rw [Text.crlf_append, extractFrom?_append, extractFrom?_append, Braces.firstBlock_crlf,
    Option.map_map, Option.map_map]
  refine congrArg (Option.map · _) (funext fun parts => ?_)
  simp only [Function.comp_apply, Extraction.crlf, Text.crlf_append]

end Carver
