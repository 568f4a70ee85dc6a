import Carver.Plan.Document
import Carver.Proofs.QuotedTexts
import Carver.Toml.Reader
import Carver.Toml.Writer

/-!
# Written values and keys are read back

A text, a list of texts (`readValue_plain`), a dotted key (`readKeys_dotted`) and the header of a
table (`readHeader_dotted`) are read back from what is written for them. A reader passes over
blanks, comments and line breaks, so it matters with which character each of them begins.
-/

namespace Carver.Toml

/-! ## Blanks -/

/-- A character that begins something: no blank, no comment and no line break. -/
def isSolid (c : Char) : Bool :=
  !(c == ' ' || c == '\t' || c == '#' || c == '\n' || c == '\r')

theorem isSolid_of_bare {c : Char} (h : isBare c = true ∨ c = '"' ∨ c = '\'') :
    isSolid c = true := by
  rcases h with h | rfl | rfl
  · rw [isSolid, Bool.not_eq_true', Bool.eq_false_iff]
    intro hc
    simp only [Bool.or_eq_true, beq_iff_eq] at hc
    rcases hc with (((rfl | rfl) | rfl) | rfl) | rfl <;> exact absurd h (by decide)
  · decide
  · decide

theorem skipIndent_of_solid {c : Char} (h : isSolid c = true) (rest : Text) :
    skipIndent (c :: rest) = c :: rest := by
  simp only [isSolid, Bool.not_eq_true', Bool.or_eq_false_iff] at h
  simp [skipIndent, h.1]

theorem afterBreak?_of_solid {c : Char} (h : isSolid c = true) (rest : Text) :
    afterBreak? (c :: rest) = none := by
  refine afterBreak?_of_ne ?_ ?_ rest
  · rintro rfl
    cases h
  · rintro rfl
    cases h

theorem skipLines_of_skipIndent {c : Char} (h : isSolid c = true) {limit : Nat} (hlimit : 0 < limit)
    {text rest : Text} (htext : skipIndent text = c :: rest) :
    skipLines limit text = some (c :: rest) := by
  obtain ⟨limit, rfl⟩ := Nat.exists_eq_succ_of_ne_zero (by omega : limit ≠ 0)
  rw [skipLines, htext]
  split
  · rename_i heq
    rw [(List.cons.inj heq).1] at h
    cases h
  · simp only [afterBreak?_of_solid h]

theorem skipLines_of_solid {c : Char} (h : isSolid c = true) (rest : Text) :
    skipLines (c :: rest).length (c :: rest) = some (c :: rest) :=
  skipLines_of_skipIndent h (by simp) (skipIndent_of_solid h rest)

/-- A line break and blanks are passed over. -/
theorem skipLines_indent {c : Char} (h : isSolid c = true) (blanks : Text)
    (hblanks : blanks.all (· == ' ') = true) (rest : Text) :
    skipLines ('\n' :: (blanks ++ c :: rest)).length ('\n' :: (blanks ++ c :: rest))
      = some (c :: rest) := by
  have hindent : skipIndent (blanks ++ c :: rest) = c :: rest := by
    have hall : ∀ z ∈ blanks, (z == ' ' || z == '\t') = true := by
      intro z hz
      rw [List.all_eq_true.1 hblanks z hz, Bool.true_or]
    rw [skipIndent, List.dropWhile_append_of_pos hall]
    exact skipIndent_of_solid h rest
  rw [List.length_cons, skipLines]
  refine skipLines_of_skipIndent h ?_ hindent
  rw [List.length_append, List.length_cons]
  omega

/-! ## Values -/

/-- A value that stands on the line of its key: a text, or a list of texts. -/
inductive IsPlain : Data → Prop
  | text (held : String) : IsPlain (.text held)
  | texts (held : List String) : IsPlain (.ofTexts held)

theorem readValue_quote (limit depth : Nat) (held : String) {rest : Text} (hrest : NoMark rest) :
    readValue (limit + 1) depth (quote held.toList ++ rest) = some (.text held, rest) := by
  have hread := readQuoted_quote held.toList hrest
  obtain ⟨c, tail, hquote, hc⟩ := exists_quote held.toList
  rw [hquote, List.cons_append] at hread ⊢
  rcases hc with rfl | rfl <;> simp [readValue, hread, String.ofList_toList]

theorem readItems_nil (limit depth : Nat) {text rest : Text}
    (htext : skipLines text.length text = some (']' :: rest)) :
    readItems (limit + 1) depth text = some ([], rest) := by
  rw [readItems, htext]
  rfl

/-- An element is read, and then what is behind it tells how the list goes on. -/
theorem readItems_item (limit depth : Nat) {item : String} {text rest : Text} {mark : Char}
    (hmark : mark = ',' ∨ mark = ']')
    (htext : skipLines text.length text = some (quote item.toList ++ mark :: rest)) :
    readItems (limit + 2) depth text =
      if mark = ',' then
        (readItems (limit + 1) depth rest).map fun (items, last) => (.text item :: items, last)
      else some ([.text item], rest) := by
  have hread : readValue (limit + 1) depth (quote item.toList ++ mark :: rest)
      = some (.text item, mark :: rest) :=
    readValue_quote limit depth item (by rcases hmark with rfl | rfl <;> simp [NoMark])
  have hskip := skipLines_of_solid (c := mark) (by rcases hmark with rfl | rfl <;> rfl) rest
  obtain ⟨c, tail, hquote, hc⟩ := exists_quote item.toList
  rw [readItems, htext]
  simp only [Option.bind_eq_bind, Option.bind_some]
  split
  · rename_i heq
    rw [hquote] at heq
    rcases hc with rfl | rfl <;> cases heq
  · simp only [hread, Option.bind_some, hskip]
    rcases hmark with rfl | rfl
    · rw [if_pos rfl, Option.map_eq_bind]
      rfl
    · rfl

/-- The elements behind one another, each on a line of its own. -/
def itemLines (held : List String) : Text :=
  held.flatMap fun item => "    ".toList ++ quote item.toList ++ [',', '\n']

/-- The elements of a list on lines of their own are read one after the other. -/
theorem readItems_itemLines {limit : Nat} (depth : Nat) (held : List String)
    (hlimit : held.length + 1 ≤ limit) (rest : Text) :
    readItems (limit + 1) depth ('\n' :: (itemLines held ++ ']' :: rest))
      = some (held.map .text, rest) := by
  induction held generalizing limit with
  | nil =>
    have hskip := skipLines_indent (c := ']') (by decide) [] rfl rest
    exact readItems_nil limit depth hskip
  | cons item held ih =>
    rw [List.length_cons] at hlimit
    obtain ⟨limit, rfl⟩ := Nat.exists_eq_succ_of_ne_zero (by omega : limit ≠ 0)
    have hskip : skipLines ('\n' :: (itemLines (item :: held) ++ ']' :: rest)).length
        ('\n' :: (itemLines (item :: held) ++ ']' :: rest))
        = some (quote item.toList ++ ',' :: '\n' :: (itemLines held ++ ']' :: rest)) := by
      obtain ⟨c, tail, hquote, hc⟩ := exists_quote item.toList
      have hskip := skipLines_indent (isSolid_of_bare (.inr hc)) "    ".toList rfl
        (tail ++ ',' :: '\n' :: (itemLines held ++ ']' :: rest))
      simpa [itemLines, hquote] using hskip
    rw [readItems_item limit depth (.inl rfl) hskip, if_pos rfl, ih (by omega)]
    rfl

theorem value_texts (held : List String) : value (.ofTexts held) =
    match held with
    | [] => ['[', ']']
    | [item] => '[' :: (quote item.toList ++ [']'])
    | held => '[' :: '\n' :: (itemLines held ++ [']']) := by
  have hvalues : value.values (held.map .text) = held.map fun item => quote item.toList := by
    induction held with
    | nil => rfl
    | cons item held ih => rw [List.map_cons, value.values, ih]; rfl
  rw [Data.ofTexts, value, hvalues]
  match held with
  | [] => rfl
  | [item] => rfl
  | first :: second :: held => simp [value.list, itemLines, List.flatMap_map]

theorem length_le_itemLines (held : List String) : held.length ≤ (itemLines held).length := by
  induction held with
  | nil => simp
  | cons item held ih =>
    rw [itemLines, List.flatMap_cons, List.length_append, List.length_cons]
    simp only [List.length_append, List.length_cons]
    change _ ≤ _ + (itemLines held).length
    omega

/-- A plain value is read back as it was. -/
theorem readValue_plain {limit depth : Nat} {held : Data} (hplain : IsPlain held) {rest : Text}
    (hlimit : (value held).length < limit) (hrest : NoMark rest) :
    readValue limit (depth + 1) (value held ++ rest) = some (held, rest) := by
  obtain ⟨limit, rfl⟩ := Nat.exists_eq_succ_of_ne_zero (by omega : limit ≠ 0)
  cases hplain with
  | text held => exact readValue_quote limit (depth + 1) held hrest
  | texts held =>
    rw [value_texts] at hlimit ⊢
    have hopen : ∀ body, readValue (limit + 1) (depth + 1) ('[' :: body)
        = (readItems limit depth body).map fun (items, last) => (.list items, last) := by
      intro body
      rw [readValue, if_neg (by omega)]
      rfl
    match held with
    | [] =>
      simp only [List.length_cons] at hlimit
      obtain ⟨limit, rfl⟩ := Nat.exists_eq_add_of_le' (by omega : 1 ≤ limit)
      rw [List.cons_append, List.singleton_append, hopen,
        readItems_nil limit depth (skipLines_of_solid rfl rest)]
      rfl
    | [item] =>
      simp only [List.length_cons, List.length_append] at hlimit
      obtain ⟨limit, rfl⟩ := Nat.exists_eq_add_of_le' (by omega : 2 ≤ limit)
      rw [List.cons_append, hopen, readItems_item limit depth (.inr rfl)]
      · rfl
      · obtain ⟨c, tail, hquote, hc⟩ := exists_quote item.toList
        simpa [hquote] using skipLines_of_solid (isSolid_of_bare (.inr hc)) (tail ++ ']' :: rest)
    | first :: second :: held =>
      have hlength := length_le_itemLines (first :: second :: held)
      simp only [List.length_cons, List.length_append] at hlimit hlength
      obtain ⟨limit, rfl⟩ := Nat.exists_eq_add_of_le' (by omega : 1 ≤ limit)
      rw [List.cons_append, hopen, List.cons_append, List.append_assoc, List.singleton_append,
        readItems_itemLines]
      · rfl
      · simp only [List.length_cons]
        omega

theorem exists_value {held : Data} (hplain : IsPlain held) :
    ∃ c tail, value held = c :: tail ∧ isSolid c = true := by
  cases hplain with
  | text held =>
    obtain ⟨c, tail, hquote, hc⟩ := exists_quote held.toList
    exact ⟨c, tail, hquote, isSolid_of_bare (.inr hc)⟩
  | texts held =>
    rw [value_texts]
    match held with
    | [] => exact ⟨_, _, rfl, rfl⟩
    | [item] => exact ⟨_, _, rfl, rfl⟩
    | first :: second :: held => exact ⟨_, _, rfl, rfl⟩

/-! ## Keys -/

theorem skipIndent_quoteKey (key rest : Text) :
    skipIndent (quoteKey key ++ rest) = quoteKey key ++ rest := by
  obtain ⟨c, tail, hkey, hc⟩ := exists_quoteKey key
  rw [hkey, List.cons_append, skipIndent_of_solid (isSolid_of_bare hc)]

theorem dotted_singleton (key : String) : dotted [key] = quoteKey key.toList := by
  simp [dotted]

theorem dotted_cons_cons (key next : String) (keys : List String) :
    dotted (key :: next :: keys) = quoteKey key.toList ++ '.' :: dotted (next :: keys) := by
  simp [dotted, List.intercalate]

/-- The text ends the keys in front of it. -/
structure EndsKeys (rest : Text) : Prop where
  not_bare : ∀ c ∈ rest.head?, isBare c = false
  no_dot : ∀ more, skipIndent rest ≠ '.' :: more

/-- The keys of a dotted key are read back as they were. -/
theorem readKeys_dotted {keys : List String} (hkeys : keys ≠ []) {limit : Nat}
    (hlimit : keys.length ≤ limit) {rest : Text} (hrest : EndsKeys rest) :
    readKeys limit (dotted keys ++ rest) = some (keys, skipIndent rest) := by
  induction keys generalizing limit with
  | nil => exact absurd rfl hkeys
  | cons key keys ih =>
    rw [List.length_cons] at hlimit
    obtain ⟨limit, rfl⟩ := Nat.exists_eq_add_of_le' (by omega : 1 ≤ limit)
    cases keys with
    | nil =>
      rw [dotted_singleton, readKeys, skipIndent_quoteKey,
        readKey_quoteKey key.toList hrest.not_bare]
      simp only [Option.bind_eq_bind, Option.bind_some, String.ofList_toList]
      split
      · exact absurd ‹_› (hrest.no_dot _)
      · rfl
    | cons next keys =>
      have hdot : ∀ c ∈ ('.' :: (dotted (next :: keys) ++ rest)).head?, isBare c = false := by
        simp
        decide
      rw [dotted_cons_cons, List.append_assoc, readKeys, skipIndent_quoteKey, List.cons_append,
        readKey_quoteKey key.toList hdot]
      have hread := ih (by simp) (Nat.le_of_succ_le_succ hlimit)
      simp only [Option.bind_eq_bind, Option.bind_some, String.ofList_toList,
        skipIndent_of_solid (c := '.') rfl, hread]
      rfl

theorem exists_dotted {keys : List String} (hkeys : keys ≠ []) :
    ∃ c tail, dotted keys = c :: tail ∧ (isBare c = true ∨ c = '"' ∨ c = '\'') := by
  obtain ⟨key, keys, rfl⟩ := List.exists_cons_of_ne_nil hkeys
  obtain ⟨c, tail, hkey, hc⟩ := exists_quoteKey key.toList
  cases keys with
  | nil => exact ⟨c, tail, by rw [dotted_singleton, hkey], hc⟩
  | cons next keys => exact ⟨c, _, by rw [dotted_cons_cons, hkey, List.cons_append], hc⟩

theorem splitKeys_append (above : List String) (key : String) :
    splitKeys (above ++ [key]) = some (above, key) := by
  simp [splitKeys]

/-- The keys of a header are read back as they were. -/
theorem readHeader_dotted {keys : List String} (hkeys : keys ≠ []) (hlimit : keys.length ≤ maxDepth)
    {close : Text} (hclose : close = [']'] ∨ close = [']', ']']) (rest : Text) :
    readHeader close (dotted keys ++ (close ++ '\n' :: rest)) = some (keys, rest) := by
  have hrest : EndsKeys (close ++ '\n' :: rest) ∧
      skipIndent (close ++ '\n' :: rest) = close ++ '\n' :: rest := by
    have hskip : skipIndent (close ++ '\n' :: rest) = close ++ '\n' :: rest := by
      rcases hclose with rfl | rfl <;> rfl
    refine ⟨⟨?_, ?_⟩, hskip⟩
    · rcases hclose with rfl | rfl <;> simp <;> decide
    · rw [hskip]
      rcases hclose with rfl | rfl <;> simp
  rw [readHeader, readKeys_dotted hkeys hlimit hrest.1, hrest.2]
  rcases hclose with rfl | rfl <;> rfl

end Carver.Toml
