import Carver.Proofs.OverlaidTables

/-!
# Documents laid over documents

Where two documents are tables all the way down to a place, the one that is laid over the other
decides what is there, and a table is laid over a table (`get?_merge`). So, unless it is a table,
what is found there is the value of the upper document if it has one, and else that of the lower one
(`get?_merge_of_leaf`). This needs documents that repeat no key in a table, as all documents that
are read (`Proper`).
-/

namespace Carver

namespace Data

/-! ## Proper documents -/

/-- The document has no null, and no key twice in one table. -/
inductive Proper : Data → Prop where
  | bool (value : Bool) : Proper (.bool value)
  | number (value : Int) : Proper (.number value)
  | decimal (text : String) : Proper (.decimal text)
  | text (value : String) : Proper (.text value)
  | list {items : List Data} (hitems : ∀ item ∈ items, Proper item) : Proper (.list items)
  | table {entries : List (String × Data)} (hdistinct : Keyed.Distinct entries)
      (hentries : ∀ entry ∈ entries, Proper entry.2) : Proper (.table entries)

namespace Proper

variable {entries : List (String × Data)} {key : String} {value : Data}

theorem empty : Proper (.table []) :=
  .table List.nodup_nil fun _ h => absurd h List.not_mem_nil

theorem distinct (h : Proper (.table entries)) : Keyed.Distinct entries := by
  cases h with
  | table hdistinct _ => exact hdistinct

theorem of_lookup (h : Proper (.table entries)) (hlookup : entries.lookup key = some value) :
    value.Proper := by
  cases h with
  | table _ hentries => exact hentries _ (Keyed.mem_of_lookup hlookup)

theorem put (h : Proper (.table entries)) (key : String) (hvalue : value.Proper) :
    Proper (.table (Keyed.put key value entries)) := by
  cases h with
  | table hdistinct hentries =>
    refine .table (Keyed.distinct_put key value hdistinct) fun entry hentry => ?_
    rcases Keyed.mem_put hentry with rfl | hentry
    · exact hvalue
    · exact hentries entry hentry

end Proper

/-! ## Tables over tables -/

/-- What a value makes of one that may lie under it. -/
def laidOver (lower : Option Data) (upper : Data) : Data :=
  match lower with
  | none => upper
  | some base => base.merge upper

theorem mergeEntries_cons (lower : List (String × Data)) (key : String) (value : Data)
    (rest : List (String × Data)) :
    mergeEntries lower ((key, value) :: rest)
      = mergeEntries (Keyed.put key (laidOver (lower.lookup key) value) lower) rest := by
  rw [mergeEntries]
  cases lower.lookup key <;> rfl

theorem lookup_mergeEntries (lower : List (String × Data)) {upper : List (String × Data)}
    (hupper : Keyed.Distinct upper) (key : String) :
    (mergeEntries lower upper).lookup key
      = ((upper.lookup key).map (laidOver (lower.lookup key))).or (lower.lookup key) := by
  induction upper generalizing lower with
  | nil =>
    rw [mergeEntries]
    rfl
  | cons entry upper ih =>
    obtain ⟨first, value⟩ := entry
    rw [Keyed.Distinct, List.map_cons, List.nodup_cons] at hupper
    rw [mergeEntries_cons, ih _ hupper.2, Keyed.lookup_put, Keyed.lookup_cons_ite]
    by_cases hkey : key = first
    · rw [if_pos hkey, if_pos hkey, hkey, Keyed.lookup_eq_none_iff_not_mem.2 hupper.1]
      rfl
    · rw [if_neg hkey, if_neg hkey]

/-- Proper documents that are laid over each other make up a proper document. -/
theorem Proper.merge {lower upper : Data} (hlower : lower.Proper) (hupper : upper.Proper) :
    (lower.merge upper).Proper := by
  induction hupper generalizing lower with
  | @table entries hdistinct hentries ih =>
    cases lower with
    | table base =>
      rw [Data.merge]
      clear hdistinct
      induction entries generalizing base with
      | nil =>
        rw [mergeEntries]
        exact hlower
      | cons entry entries ihentries =>
        obtain ⟨key, value⟩ := entry
        rw [List.forall_mem_cons] at hentries ih
        rw [mergeEntries_cons]
        refine ihentries hentries.2 ih.2 _ (hlower.put key ?_)
        cases hbase : base.lookup key with
        | none => exact hentries.1
        | some held => exact ih.1 (hlower.of_lookup hbase)
    | _ => exact .table hdistinct hentries
  | _ => simp only [Data.merge]; constructor <;> assumption

/-! ## Places in documents -/

/-- Whether the value is a table. -/
def isTable : Data → Bool
  | .table _ => true
  | _ => false

theorem exists_of_isTable {value : Data} (h : value.isTable = true) :
    ∃ entries, value = .table entries := by
  cases value with
  | table entries => exact ⟨entries, rfl⟩
  | _ => cases h

/-- A value that is no table takes the place of what lies under it. -/
theorem laidOver_of_leaf {lower : Option Data} {upper : Data}
    (h : (laidOver lower upper).isTable = false) : laidOver lower upper = upper := by
  cases lower with
  | none => rfl
  | some base =>
    cases upper with
    | table entries => cases base <;> cases h
    | _ => rfl

/-- The document is a table, and so is everything on the way to the place that is there. -/
def Open : Data → List String → Prop
  | _, [] => True
  | .table entries, key :: rest => ∀ inner ∈ entries.lookup key, inner.Open rest
  | _, _ :: _ => False

theorem get?_table (entries : List (String × Data)) (key : String) (rest : List String) :
    (table entries).get? (key :: rest) = (entries.lookup key).bind (·.get? rest) := by
  rw [get?]
  cases entries.lookup key <;> rfl

theorem get?_of_lookup {entries : List (String × Data)} {key : String} {inner : Data}
    (h : entries.lookup key = some inner) (rest : List String) :
    (table entries).get? (key :: rest) = inner.get? rest := by
  rw [get?_table, h, Option.bind_some]

theorem get?_singleton (entries : List (String × Data)) (key : String) :
    (table entries).get? [key] = entries.lookup key := by
  rw [get?_table]
  cases entries.lookup key <;> rfl

section

variable {lower upper : Data} {path : List String}

theorem exists_of_open {document : Data} {key : String} {rest : List String}
    (h : document.Open (key :: rest)) :
    ∃ entries, document = .table entries ∧ ∀ inner ∈ entries.lookup key, inner.Open rest := by
  cases document with
  | table entries => exact ⟨entries, rfl, h⟩
  | _ => exact h.elim

/-- A document is open to a place if there are tables alone on the way. -/
theorem open_of_tables {document : Data}
    (h : ∀ above, above <+: path → above ≠ path →
      ∀ value ∈ document.get? above, value.isTable = true) : document.Open path := by
  induction path generalizing document with
  | nil => exact trivial
  | cons key rest ih =>
    obtain ⟨entries, rfl⟩ :=
      exists_of_isTable (h [] (List.nil_prefix) (List.cons_ne_nil _ _).symm document rfl)
    intro inner hinner
    refine ih fun above habove hne value hvalue => ?_
    refine h (key :: above) (List.cons_prefix_cons.2 ⟨rfl, habove⟩) (by simpa using hne) value ?_
    rw [get?_table, hinner]
    exact hvalue

/-- At a place that both documents are open to, the upper one lies over the lower one. -/
theorem get?_merge (hproper : upper.Proper) (hlower : lower.Open path) (hupper : upper.Open path) :
    (lower.merge upper).get? path
      = ((upper.get? path).map (laidOver (lower.get? path))).or (lower.get? path) := by
  induction path generalizing lower upper with
  | nil => simp only [get?, Option.map_some, Option.some_or, laidOver]
  | cons key rest ih =>
    obtain ⟨base, rfl, hbase⟩ := exists_of_open hlower
    obtain ⟨entries, rfl, hentries⟩ := exists_of_open hupper
    rw [merge, get?_table, get?_table, get?_table, lookup_mergeEntries base hproper.distinct]
    cases hvalue : entries.lookup key with
    | none => rfl
    | some value =>
      cases hheld : base.lookup key with
      | none =>
        have hover : laidOver none = id := rfl
        simp only [Option.map_some, Option.bind_some, Option.bind_none, hover,
          Option.map_id, id, Option.or_none]
      | some held => exact ih (hproper.of_lookup hvalue) (hbase held hheld) (hentries value hvalue)

/-- Unless a table is found, it is the value of the upper document, or else that of the lower. -/
theorem get?_merge_of_leaf (hproper : upper.Proper) (hlower : lower.Open path)
    (hupper : upper.Open path)
    (hleaf : ∀ value ∈ (lower.merge upper).get? path, value.isTable = false) :
    (lower.merge upper).get? path = (upper.get? path).or (lower.get? path) := by
  rw [get?_merge hproper hlower hupper] at hleaf ⊢
  cases hvalue : upper.get? path with
  | none => rfl
  | some value =>
    rw [hvalue] at hleaf
    exact congrArg some (laidOver_of_leaf (hleaf _ rfl))

end

end Data

end Carver
