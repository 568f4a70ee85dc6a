import Carver.Proofs.OverlaidTables
import Carver.Proofs.WrittenValues

/-!
# Written lines are read back

A reader of lines goes from one state, which is the table at hand, all entries so far and what is
left of the text, to the next one (`Reads`). Each line that the writer makes takes it one step: a
plain entry, a header, a blank line. Where a table stands among all entries is told by how they are
made up from it (`Focus`), and so a table with its plain entries is read as a whole (`reads_table`),
and so are the elements of a list of tables (`reads_elements`).
-/

namespace Carver.Toml

/-! ## Lines -/

/-- The reader goes from the state in front to the one behind: the path of the table at hand, all
entries and the text that is left. However many lines it may read, it has enough left if it had
enough. -/
def Reads (path : List String) (entries : Entries) (text : Text) (path' : List String)
    (entries' : Entries) (rest : Text) : Prop :=
  ∀ limit, text.length < limit → ∃ limit', rest.length < limit' ∧
    readLines limit path entries text = readLines limit' path' entries' rest

namespace Reads

variable {path path' path'' : List String} {entries entries' entries'' : Entries}
  {text text' rest : Text}

theorem refl : Reads path entries text path entries text :=
  fun limit hlimit => ⟨limit, hlimit, rfl⟩

theorem trans (h : Reads path entries text path' entries' text')
    (hlater : Reads path' entries' text' path'' entries'' rest) :
    Reads path entries text path'' entries'' rest := by
  intro limit hlimit
  obtain ⟨limit', hlimit', heq⟩ := h limit hlimit
  obtain ⟨limit'', hlimit'', heq'⟩ := hlater limit' hlimit'
  exact ⟨limit'', hlimit'', heq.trans heq'⟩

/-- One line was read. -/
theorem of_step (hlength : rest.length < text.length)
    (h : ∀ limit, readLines (limit + 1) path entries text = readLines limit path' entries' rest) :
    Reads path entries text path' entries' rest := by
  intro limit hlimit
  obtain ⟨limit, rfl⟩ := Nat.exists_eq_add_of_le' (by omega : 1 ≤ limit)
  exact ⟨limit, by omega, h limit⟩

/-- A document that is read to its end gives the entries. -/
theorem read?_eq (h : Reads [] [] text path entries []) (hmark : ∀ rest, text ≠ '\uFEFF' :: rest) :
    read? text = some (.table (entriesToData entries)) := by
  obtain ⟨limit, hlimit, heq⟩ := h (text.length + 1) (Nat.lt_succ_self _)
  obtain ⟨limit, rfl⟩ := Nat.exists_eq_add_of_le' (by omega : 1 ≤ limit)
  rw [read?, heq]
  · rfl
  · exact fun rest hbom => hmark rest hbom

theorem blank : Reads path entries ('\n' :: rest) path entries rest :=
  of_step (by simp) fun _ => rfl

end Reads

/-- A line that begins with a key is an entry. -/
theorem readLines_of_key {limit : Nat} {path : List String} {entries : Entries} {c : Char}
    {text : Text} (hc : isBare c = true ∨ c = '"' ∨ c = '\'') :
    readLines (limit + 1) path entries (c :: text) = (do
      let (keys, rest) ← readKeys maxDepth (c :: text)
      let (way, key) ← splitKeys keys
      match rest with
      | '=' :: rest =>
        let (held, rest) ← readValue rest.length maxDepth (skipIndent rest)
        let rest ← endLine rest
        readLines limit path (← changeAt (assign key held true way) path entries) rest
      | _ => none) := by
  have hsolid := isSolid_of_bare hc
  have hbracket : c ≠ '[' := by
    rintro rfl
    rcases hc with hc | hc | hc <;> cases hc
  have hcomment : ¬ ((c :: text).head? = some '#' || (afterBreak? (c :: text)).isSome) = true := by
    rw [afterBreak?_of_solid hsolid]
    rintro hhash
    simp only [List.head?_cons, Option.some.injEq, Option.isSome_none, Bool.or_false,
      decide_eq_true_eq] at hhash
    rw [hhash] at hsolid
    cases hsolid
  rw [readLines, skipIndent_of_solid hsolid]
  split
  · rename_i heq
    cases heq
  · rename_i heq
    exact absurd (List.cons.inj heq).1 hbracket
  · rename_i heq
    exact absurd (List.cons.inj heq).1 hbracket
  · exact if_neg hcomment

/-- The line of a plain entry. -/
def entryLine (entry : String × Data) : Text :=
  quoteKey entry.1.toList ++ " = ".toList ++ value entry.2 ++ ['\n']

/-- A plain entry is read into the table at hand. -/
theorem reads_entry {path : List String} {entries changed : Entries} {key : String} {held : Data}
    (hplain : IsPlain held)
    (hchange : changeAt (assign key held true []) path entries = some changed) (rest : Text) :
    Reads path entries (entryLine (key, held) ++ rest) path changed rest := by
  refine .of_step (by simp [entryLine]; omega) fun limit => ?_
  have hline : entryLine (key, held) ++ rest
      = quoteKey key.toList ++ ' ' :: '=' :: ' ' :: (value held ++ '\n' :: rest) := by
    simp [entryLine]
  have hends : EndsKeys (' ' :: '=' :: ' ' :: (value held ++ '\n' :: rest)) := by
    refine ⟨by simp; decide, fun more heq => ?_⟩
    cases (List.cons.inj heq).1
  have hkeys : readKeys maxDepth (dotted [key] ++ _) = _ :=
    readKeys_dotted (by simp) (by simp [maxDepth]) hends
  have hlength : (value held).length < (' ' :: (value held ++ '\n' :: rest)).length := by
    simp only [List.length_cons, List.length_append]
    omega
  have hvalue : readValue (' ' :: (value held ++ '\n' :: rest)).length (78 + 1)
      (value held ++ '\n' :: rest) = some (held, '\n' :: rest) :=
    readValue_plain hplain hlength (by simp [NoMark])
  have hskip : skipIndent (' ' :: (value held ++ '\n' :: rest)) = value held ++ '\n' :: rest := by
    obtain ⟨c, tail, hheld, hc⟩ := exists_value hplain
    rw [hheld, List.cons_append]
    exact skipIndent_of_solid hc _
  rw [dotted_singleton] at hkeys
  obtain ⟨c, tail, hkey, hc⟩ := exists_quoteKey key.toList
  rw [hline, hkey, List.cons_append, readLines_of_key hc, ← List.cons_append, ← hkey, hkeys]
  change (readValue _ (78 + 1) (skipIndent (' ' :: (value held ++ '\n' :: rest)))).bind _ = _
  rw [hskip, hvalue]
  change (changeAt (assign key held true []) path entries).bind _ = _
  rw [hchange]
  rfl

/-- A header opens its table. -/
theorem reads_header {path above : List String} {key : String} {entries changed : Entries}
    (hlimit : above.length < maxDepth)
    (hchange : changeAt (openTable key) above entries = some changed) (rest : Text) :
    Reads path entries (['['] ++ dotted (above ++ [key]) ++ [']', '\n'] ++ rest)
      (above ++ [key]) changed rest := by
  refine .of_step (by simp; omega) fun limit => ?_
  have hkeys : above ++ [key] ≠ [] := by simp
  have hheader := readHeader_dotted hkeys (by simp; omega) (.inl rfl) rest
  obtain ⟨c, tail, hdotted, hc⟩ := exists_dotted hkeys
  have hline : ['['] ++ dotted (above ++ [key]) ++ [']', '\n'] ++ rest
      = '[' :: c :: (tail ++ ([']'] ++ '\n' :: rest)) := by
    simp [hdotted]
  rw [hdotted, List.cons_append] at hheader
  rw [hline, readLines, skipIndent_of_solid rfl]
  split
  · rename_i heq
    cases heq
  · rename_i heq
    rw [(List.cons.inj (List.cons.inj heq).2).1] at hc
    rcases hc with hc | hc | hc <;> cases hc
  · rename_i heq
    rw [← (List.cons.inj heq).2, hheader]
    simp only [Option.bind_eq_bind, Option.bind_some, splitKeys_append, hchange]
  · rename_i heq
    exact absurd rfl (heq _)

/-- A header in two brackets opens one more element. -/
theorem reads_element {path above : List String} {key : String} {entries changed : Entries}
    (hlimit : above.length < maxDepth)
    (hchange : changeAt (openElement key) above entries = some changed) (rest : Text) :
    Reads path entries (['[', '['] ++ dotted (above ++ [key]) ++ [']', ']', '\n'] ++ rest)
      (above ++ [key]) changed rest := by
  refine .of_step (by simp; omega) fun limit => ?_
  have hkeys : above ++ [key] ≠ [] := by simp
  have hheader := readHeader_dotted hkeys (by simp; omega) (.inr rfl) rest
  have hline : ['[', '['] ++ dotted (above ++ [key]) ++ [']', ']', '\n'] ++ rest
      = '[' :: '[' :: (dotted (above ++ [key]) ++ ([']', ']'] ++ '\n' :: rest)) := by
    simp
  rw [hline, readLines, skipIndent_of_solid rfl]
  simp only [hheader, Option.bind_eq_bind, Option.bind_some, splitKeys_append, hchange]

/-! ## Tables -/

/-- All entries are made up from those of the table under the path. -/
def Focus (path : List String) (rebuild : Entries → Entries) : Prop :=
  ∀ change inner, changeAt change path (rebuild inner) = (change inner).map rebuild

namespace Focus

variable {path : List String} {rebuild : Entries → Entries} {before : Entries} {key : String}

theorem top : Focus [] fun inner => inner := by
  intro change inner
  rw [changeAt]
  cases change inner <;> rfl

theorem changeLast_append (change : Entries → Option Entries) (elements : List Entries)
    (last : Entries) : changeLast change (elements ++ [last])
      = (change last).map fun changed => elements ++ [changed] := by
  induction elements with
  | nil => rfl
  | cons first elements ih =>
    have hstep : changeLast change (first :: (elements ++ [last]))
        = (changeLast change (elements ++ [last])).map (first :: ·) := by
      cases elements <;> rfl
    rw [List.cons_append, hstep, ih, Option.map_map]
    rfl

/-- Changes under a path are changes of a table on the way to it. -/
theorem changeAt_append (change : Entries → Option Entries) (above path : List String)
    (entries : Entries) :
    changeAt change (above ++ path) entries = changeAt (changeAt change path) above entries := by
  have hchange : ∀ above, changeAt change (above ++ path)
      = changeAt (changeAt change path) above := by
    intro above
    induction above with
    | nil => rfl
    | cons key above ih =>
      funext entries
      rw [List.cons_append, changeAt, changeAt, ih]
  rw [hchange]

/-- A table that comes last. -/
theorem table (h : Focus path rebuild) (hfresh : before.lookup key = none) (origin : Origin) :
    Focus (path ++ [key]) fun inner => rebuild (before ++ [(key, .table origin inner)]) := by
  intro change inner
  rw [changeAt_append, h, changeAt, Keyed.lookup_append_self hfresh]
  simp only [changeAt, Option.map_map]
  cases change inner with
  | none => rfl
  | some changed => simp only [Option.map_some, Function.comp_apply, Keyed.put_append_self hfresh]

/-- The last element of a list of tables that comes last. -/
theorem element (h : Focus path rebuild) (hfresh : before.lookup key = none)
    (elements : List Entries) :
    Focus (path ++ [key]) fun inner =>
      rebuild (before ++ [(key, .tables (elements ++ [inner]))]) := by
  intro change inner
  rw [changeAt_append, h, changeAt, Keyed.lookup_append_self hfresh]
  simp only [changeLast_append, changeAt, Option.map_map]
  cases change inner with
  | none => rfl
  | some changed => simp only [Option.map_some, Function.comp_apply, Keyed.put_append_self hfresh]

end Focus

/-- Plain entries as they are read. -/
def plainNodes (items : List (String × Data)) : Entries :=
  items.map fun item => (item.1, .value item.2)

theorem entriesToData_append (entries others : Entries) :
    entriesToData (entries ++ others) = entriesToData entries ++ entriesToData others := by
  induction entries with
  | nil => rfl
  | cons entry entries ih =>
    obtain ⟨key, node⟩ := entry
    rw [List.cons_append, entriesToData, entriesToData, ih, List.cons_append]

theorem entriesToData_plainNodes (items : List (String × Data)) :
    entriesToData (plainNodes items) = items := by
  induction items with
  | nil => rfl
  | cons item items ih =>
    rw [plainNodes, List.map_cons, entriesToData, Node.toData]
    exact congrArg _ ih

theorem elementsToData_plainNodes (tables : List (List (String × Data))) :
    elementsToData (tables.map plainNodes) = tables.map .table := by
  induction tables with
  | nil => rfl
  | cons items tables ih =>
    rw [List.map_cons, elementsToData, entriesToData_plainNodes, ih, List.map_cons]

theorem isSection_of_isPlain {held : Data} (h : IsPlain held) : isSection held = false := by
  cases h with
  | text held => rfl
  | texts held => cases held <;> rfl

theorem plainLines_eq {items : List (String × Data)} (h : ∀ item ∈ items, IsPlain item.2) :
    plainLines items = items.flatMap entryLine := by
  have hall : items.filter (!isSection ·.2) = items := by
    rw [List.filter_eq_self]
    intro item hitem
    rw [isSection_of_isPlain (h item hitem), Bool.not_false]
  rw [plainLines, hall]
  rfl

/-- Plain lines add their entries to the table at hand. -/
theorem reads_plainLines {path : List String} {rebuild : Entries → Entries}
    (hfocus : Focus path rebuild) (inner : Entries) {items : List (String × Data)}
    (hplain : ∀ item ∈ items, IsPlain item.2) (hnodup : (items.map (·.1)).Nodup)
    (hfresh : ∀ item ∈ items, inner.lookup item.1 = none) (rest : Text) :
    Reads path (rebuild inner) (plainLines items ++ rest)
      path (rebuild (inner ++ plainNodes items)) rest := by
  rw [plainLines_eq hplain]
  induction items generalizing inner with
  | nil =>
    rw [plainNodes, List.map_nil, List.append_nil]
    exact .refl
  | cons item items ih =>
    obtain ⟨key, held⟩ := item
    rw [List.forall_mem_cons] at hplain hfresh
    rw [List.map_cons, List.nodup_cons] at hnodup
    have hchange : changeAt (assign key held true []) path (rebuild inner)
        = some (rebuild (inner ++ [(key, .value held)])) := by
      rw [hfocus, assign, hfresh.1, ← Keyed.put_of_lookup_eq_none hfresh.1]
      rfl
    have hfresh' : ∀ item ∈ items, (inner ++ [(key, Node.value held)]).lookup item.1 = none := by
      intro item hitem
      have hne : item.1 ≠ key := by
        rintro rfl
        exact hnodup.1 (List.mem_map.2 ⟨item, hitem, rfl⟩)
      rw [List.lookup_append, hfresh.2 item hitem, Option.none_or, List.lookup_cons,
        beq_false_of_ne hne]
      rfl
    have hlater := ih _ hplain.2 hnodup.2 hfresh'
    rw [List.append_assoc] at hlater
    rw [List.flatMap_cons, List.append_assoc]
    exact (reads_entry hplain.1 hchange _).trans hlater

/-- The text of a table: its header and its plain entries. -/
def tableText (path : List String) (items : List (String × Data)) : Text :=
  ['['] ++ dotted path ++ [']', '\n'] ++ plainLines items

/-- The text of an element of a list of tables. -/
def elementText (path : List String) (items : List (String × Data)) : Text :=
  ['[', '['] ++ dotted path ++ [']', ']', '\n'] ++ plainLines items

/-- Plain entries with different keys. -/
structure PlainItems (items : List (String × Data)) : Prop where
  plain : ∀ item ∈ items, IsPlain item.2
  nodup : (items.map (·.1)).Nodup

/-- A table is read with its plain entries. -/
theorem reads_table (path : List String) {above : List String} {rebuild : Entries → Entries}
    (hfocus : Focus above rebuild) (hlimit : above.length < maxDepth) {inner : Entries}
    {key : String} (hfresh : inner.lookup key = none) {items : List (String × Data)}
    (hitems : PlainItems items) (rest : Text) :
    Reads path (rebuild inner) (tableText (above ++ [key]) items ++ rest) (above ++ [key])
      (rebuild (inner ++ [(key, .table .header (plainNodes items))])) rest := by
  have hopen : changeAt (openTable key) above (rebuild inner)
      = some (rebuild (inner ++ [(key, .table .header [])])) := by
    rw [hfocus, openTable, hfresh, ← Keyed.put_of_lookup_eq_none hfresh]
    rfl
  have hplain := reads_plainLines (hfocus.table hfresh .header) [] hitems.plain
    hitems.nodup (by simp) rest
  rw [List.nil_append] at hplain
  rw [tableText, List.append_assoc]
  exact (reads_header hlimit hopen _).trans hplain

/-- The entries with a list of tables behind them, if it has elements. -/
def withElements (inner : Entries) (key : String) (elements : List Entries) : Entries :=
  if elements.isEmpty then inner else inner ++ [(key, .tables elements)]

/-- Elements of a list of tables are read one after the other, each behind a blank line. -/
theorem reads_elements {path above : List String} {rebuild : Entries → Entries}
    (hfocus : Focus above rebuild) (hlimit : above.length < maxDepth) {inner : Entries}
    {key : String} (hfresh : inner.lookup key = none) (elements : List Entries)
    {tables : List (List (String × Data))} (htables : ∀ items ∈ tables, PlainItems items)
    (rest : Text) :
    ∃ path', Reads path (rebuild (withElements inner key elements))
      (tables.flatMap (fun items => '\n' :: elementText (above ++ [key]) items) ++ rest)
      path' (rebuild (withElements inner key (elements ++ tables.map plainNodes))) rest := by
  induction tables generalizing path elements with
  | nil =>
    rw [List.map_nil, List.append_nil]
    exact ⟨path, .refl⟩
  | cons items tables ih =>
    rw [List.forall_mem_cons] at htables
    have hopen : changeAt (openElement key) above (rebuild (withElements inner key elements))
        = some (rebuild (inner ++ [(key, .tables (elements ++ [[]]))])) := by
      rw [hfocus, openElement, withElements]
      cases elements with
      | nil =>
        rw [if_pos List.isEmpty_nil, hfresh, ← Keyed.put_of_lookup_eq_none hfresh]
        rfl
      | cons first elements =>
        rw [if_neg (by simp), Keyed.lookup_append_self hfresh]
        simp only [Keyed.put_append_self hfresh, Option.map_some]
    have hplain := reads_plainLines (hfocus.element hfresh elements) []
      htables.1.plain htables.1.nodup (by simp)
    rw [List.nil_append] at hplain
    have hnode : inner ++ [(key, .tables (elements ++ [plainNodes items]))]
        = withElements inner key (elements ++ [plainNodes items]) := by
      simp [withElements]
    rw [hnode] at hplain
    obtain ⟨path', hlater⟩ := @ih (above ++ [key]) (elements ++ [plainNodes items]) htables.2
    refine ⟨path', ?_⟩
    rw [List.append_assoc, List.singleton_append, ← List.map_cons] at hlater
    rw [List.flatMap_cons, List.append_assoc, List.cons_append, elementText, List.append_assoc]
    exact (Reads.blank.trans (reads_element hlimit hopen _)).trans ((hplain _).trans hlater)

/-! ## Sections -/

theorem intercalate_cons (part : Text) (parts : List Text) :
    ['\n'].intercalate (part :: parts) = part ++ parts.flatMap ('\n' :: ·) := by
  induction parts generalizing part with
  | nil => simp [List.intercalate]
  | cons next parts ih =>
    have hnext : ['\n'].intercalate (part :: next :: parts)
        = part ++ '\n' :: ['\n'].intercalate (next :: parts) := by
      simp [List.intercalate]
    rw [hnext, ih, List.flatMap_cons]
    rfl

theorem plainLines_cons (item : String × Data) (items : List (String × Data)) :
    plainLines (item :: items)
      = (if isSection item.2 then [] else entryLine item) ++ plainLines items := by
  rw [plainLines, List.filter_cons]
  cases isSection item.2 <;> rfl

theorem isSection_tables (tables : List (List (String × Data))) :
    isSection (.list (tables.map .table)) = !tables.isEmpty := by
  simp [isSection]

theorem sections_cons_of_isPlain {held : Data} (h : IsPlain held) (path : List String)
    (key : String) (rest : List (String × Data)) :
    sections path ((key, held) :: rest) = sections path rest := by
  have hsection := isSection_of_isPlain h
  cases h with
  | text held => simp [sections]
  | texts held =>
    change isSection (.list (held.map .text)) = false at hsection
    change sections path ((key, .list (held.map .text)) :: rest) = _
    rw [sections, hsection]
    rfl

theorem sections_eq_nil {items : List (String × Data)} (h : ∀ item ∈ items, IsPlain item.2)
    (path : List String) : sections path items = [] := by
  induction items with
  | nil => rw [sections]
  | cons item items ih =>
    rw [List.forall_mem_cons] at h
    rw [sections_cons_of_isPlain h.1, ih h.2]

theorem sections_cons_table {items : List (String × Data)} (h : ∀ item ∈ items, IsPlain item.2)
    (path : List String) (key : String) (rest : List (String × Data)) :
    sections path ((key, .table items) :: rest)
      = tableText (path ++ [key]) items :: sections path rest := by
  rw [sections, sections_eq_nil h, tableText]
  rfl

theorem elements_tables {tables : List (List (String × Data))}
    (h : ∀ items ∈ tables, ∀ item ∈ items, IsPlain item.2) (path : List String) :
    sections.elements path (tables.map .table) = tables.map (elementText path) := by
  induction tables with
  | nil => rw [List.map_nil, sections.elements, List.map_nil]
  | cons items tables ih =>
    rw [List.forall_mem_cons] at h
    rw [List.map_cons, sections.elements, sections_eq_nil h.1, ih h.2]
    rfl

theorem sections_cons_tables {tables : List (List (String × Data))}
    (h : ∀ items ∈ tables, ∀ item ∈ items, IsPlain item.2) (path : List String) (key : String)
    (rest : List (String × Data)) :
    sections path ((key, .list (tables.map .table)) :: rest)
      = tables.map (elementText (path ++ [key])) ++ sections path rest := by
  rw [sections, isSection_tables, elements_tables h]
  cases tables <;> rfl

end Carver.Toml
