import Carver.Config.Environment
import Carver.Config.Boxed
import Carver.Proofs.MergedTables
import Carver.Toml.Reader

/-!
# What is read is proper

No reader makes up a null, and each puts an entry into a table under a key that is free there or
over the one that has the key. So documents (`Toml.proper_of_read?`) and the values of variables
(`Environment.proper_of_value?`) are proper: each step keeps the table at hand proper, and a change
below a path keeps all that lies above it proper (`preserves_changeAt`).
-/

namespace Carver

open Data (Proper)

namespace Toml

/-! ## Tables while a document is read -/

theorem entriesToData_eq_map (entries : Entries) :
    entriesToData entries = entries.map fun entry => (entry.1, entry.2.toData) := by
  induction entries with
  | nil => rfl
  | cons entry entries ih => rw [entriesToData, ih, List.map_cons]

theorem entriesToData_put (key : String) (node : Node) (entries : Entries) :
    entriesToData (Keyed.put key node entries)
      = Keyed.put key node.toData (entriesToData entries) := by
  rw [entriesToData_eq_map, entriesToData_eq_map]
  exact (Keyed.put_map Node.toData key node entries).symm

theorem mem_elementsToData {elements : List Entries} {element : Data} :
    element ∈ elementsToData elements ↔
      ∃ entries ∈ elements, element = .table (entriesToData entries) := by
  induction elements with
  | nil => simp [elementsToData]
  | cons entries elements ih => simp only [elementsToData, List.mem_cons, ih, exists_eq_or_imp]

/-- What has been read so far is a proper table. -/
def ProperEntries (entries : Entries) : Prop :=
  Proper (.table (entriesToData entries))

theorem properEntries_nil : ProperEntries [] :=
  Proper.empty

namespace ProperEntries

variable {entries : Entries} {key : String} {node : Node}

theorem put (h : ProperEntries entries) (key : String) (hnode : node.toData.Proper) :
    ProperEntries (Keyed.put key node entries) := by
  rw [ProperEntries, entriesToData_put]
  exact Proper.put h key hnode

theorem of_lookup (h : ProperEntries entries) (hlookup : entries.lookup key = some node) :
    node.toData.Proper := by
  rw [ProperEntries, entriesToData_eq_map] at h
  cases h with
  | table _ hentries =>
    exact hentries (key, node.toData) (List.mem_map_of_mem (Keyed.mem_of_lookup hlookup))

end ProperEntries

theorem proper_tables_iff {elements : List Entries} :
    (Node.tables elements).toData.Proper ↔ ∀ entries ∈ elements, ProperEntries entries := by
  rw [Node.toData]
  constructor
  · intro h entries hentries
    cases h with
    | list hitems => exact hitems _ (mem_elementsToData.2 ⟨entries, hentries, rfl⟩)
  · intro h
    refine .list fun item hitem => ?_
    obtain ⟨entries, hentries, rfl⟩ := mem_elementsToData.1 hitem
    exact h entries hentries

/-! ## Changes -/

/-- The change leaves proper entries proper. -/
def Preserves (change : Entries → Option Entries) : Prop :=
  ∀ entries changed, change entries = some changed → ProperEntries entries → ProperEntries changed

theorem preserves_changeLast {change : Entries → Option Entries} (hchange : Preserves change)
    {elements changed : List Entries} (h : changeLast change elements = some changed)
    (helements : ∀ entries ∈ elements, ProperEntries entries) :
    ∀ entries ∈ changed, ProperEntries entries := by
  induction elements generalizing changed with
  | nil => cases h
  | cons first rest ih =>
    rw [List.forall_mem_cons] at helements
    cases rest with
    | nil =>
      obtain ⟨last, hlast, rfl⟩ := Option.map_eq_some_iff.1 h
      rw [List.forall_mem_singleton]
      exact hchange first last hlast helements.1
    | cons second rest =>
      obtain ⟨later, hlater, rfl⟩ := Option.map_eq_some_iff.1 h
      exact List.forall_mem_cons.2 ⟨helements.1, ih hlater helements.2⟩

theorem preserves_changeAt {change : Entries → Option Entries} (hchange : Preserves change)
    (path : List String) : Preserves (changeAt change path) := by
  induction path with
  | nil =>
    intro entries changed h
    rw [changeAt] at h
    exact hchange entries changed h
  | cons key path ih =>
    intro entries changed h hentries
    rw [changeAt] at h
    split at h
    · obtain ⟨made, hmade, rfl⟩ := Option.map_eq_some_iff.1 h
      exact hentries.put key (ih [] made hmade properEntries_nil)
    · cases h
    · rename_i elements hlookup
      obtain ⟨later, hlater, rfl⟩ := Option.map_eq_some_iff.1 h
      exact hentries.put key (proper_tables_iff.2
        (preserves_changeLast ih hlater (proper_tables_iff.1 (hentries.of_lookup hlookup))))
    · rename_i origin inner hlookup
      obtain ⟨later, hlater, rfl⟩ := Option.map_eq_some_iff.1 h
      exact hentries.put key (ih inner later hlater (hentries.of_lookup hlookup))

theorem preserves_openTable (key : String) : Preserves (openTable key) := by
  intro entries changed h hentries
  rw [openTable] at h
  split at h
  · obtain rfl := Option.some.inj h
    exact hentries.put key Proper.empty
  · rename_i inner hlookup
    obtain rfl := Option.some.inj h
    have hinner : ProperEntries inner := hentries.of_lookup hlookup
    exact hentries.put key hinner
  · cases h

theorem preserves_openElement (key : String) : Preserves (openElement key) := by
  intro entries changed h hentries
  rw [openElement] at h
  split at h
  · obtain rfl := Option.some.inj h
    exact hentries.put key (proper_tables_iff.2 (List.forall_mem_singleton.2 properEntries_nil))
  · rename_i elements hlookup
    obtain rfl := Option.some.inj h
    refine hentries.put key (proper_tables_iff.2 (List.forall_mem_append.2 ⟨?_, ?_⟩))
    · exact proper_tables_iff.1 (hentries.of_lookup hlookup)
    · exact List.forall_mem_singleton.2 properEntries_nil
  · cases h

theorem preserves_assign (key : String) {held : Data} (hheld : held.Proper) (mayHold : Bool)
    (path : List String) : Preserves (assign key held mayHold path) := by
  induction path generalizing mayHold with
  | nil =>
    intro entries changed h hentries
    rw [assign] at h
    split at h
    · obtain rfl := Option.some.inj h
      exact hentries.put key hheld
    · cases h
  | cons step path ih =>
    intro entries changed h hentries
    rw [assign] at h
    split at h
    · obtain ⟨made, hmade, rfl⟩ := Option.map_eq_some_iff.1 h
      exact hentries.put step (ih true [] made hmade properEntries_nil)
    · cases h
    · rename_i elements hlookup
      obtain ⟨later, hlater, rfl⟩ := Option.map_eq_some_iff.1 h
      exact hentries.put step (proper_tables_iff.2
        (preserves_changeLast (ih false) hlater (proper_tables_iff.1 (hentries.of_lookup hlookup))))
    · cases h
    · rename_i origin inner _ hlookup
      obtain ⟨later, hlater, rfl⟩ := Option.map_eq_some_iff.1 h
      exact hentries.put step (ih _ inner later hlater (hentries.of_lookup hlookup))

/-! ## Values -/

theorem proper_of_scalar? {text : Text} {held : Data} (h : scalar? text = some held) :
    held.Proper := by
  rw [scalar?] at h
  split at h
  · exact Option.some.inj h ▸ .bool true
  · split at h
    · exact Option.some.inj h ▸ .bool false
    · split at h
      · exact Option.some.inj h ▸ .number _
      · split at h
        · exact Option.some.inj h ▸ .decimal _
        · split at h
          · obtain rfl := Option.some.inj h
            exact .table (List.pairwise_singleton _ _) (List.forall_mem_singleton.2 (.text _))
          · cases h

theorem proper_of_readScalar {text : Text} {read : Data × Text} (h : readScalar text = some read) :
    read.1.Proper := by
  have hmap : ∀ piece rest, (scalar? piece).map (·, rest) = some read → read.1.Proper := by
    intro piece rest hread
    obtain ⟨held, hheld, rfl⟩ := Option.map_eq_some_iff.1 hread
    exact proper_of_scalar? hheld
  rw [readScalar] at h
  split at h
  · split at h
    · exact hmap _ _ h
    · exact hmap _ _ h
  · exact hmap _ _ h

/-- What has been read at a step of the readers of values. -/
theorem proper_of_readers (limit : Nat) :
    (∀ depth text read, readValue limit depth text = some read → read.1.Proper) ∧
    (∀ depth text read, readItems limit depth text = some read →
      ∀ item ∈ read.1, item.Proper) ∧
    (∀ depth entries text read, readPairs limit depth entries text = some read →
      ProperEntries entries → ProperEntries read.1) := by
  induction limit with
  | zero => exact ⟨nofun, nofun, nofun⟩
  | succ limit ih =>
    obtain ⟨hvalue, hitems, hpairs⟩ := ih
    refine ⟨fun depth text read h => ?_, fun depth text read h => ?_,
      fun depth entries text read h hentries => ?_⟩
    · rw [readValue.eq_def] at h
      dsimp only at h
      split at h
      · split at h
        · cases h
        · obtain ⟨inner, hinner, rfl⟩ := Option.map_eq_some_iff.1 h
          exact .list (hitems _ _ inner hinner)
      · split at h
        · cases h
        · split at h
          · obtain rfl := Option.some.inj h
            exact Proper.empty
          · obtain ⟨inner, hinner, rfl⟩ := Option.map_eq_some_iff.1 h
            exact hpairs _ [] _ inner hinner properEntries_nil
      · split at h
        · obtain ⟨inner, _, rfl⟩ := Option.map_eq_some_iff.1 h
          exact .text _
        · exact proper_of_readScalar h
      · cases h
    · rw [readItems] at h
      obtain ⟨start, _, h⟩ := Option.bind_eq_some_iff.1 h
      split at h
      · obtain rfl := Option.some.inj h
        exact fun item hitem => absurd hitem List.not_mem_nil
      · obtain ⟨⟨item, rest⟩, hitem, h⟩ := Option.bind_eq_some_iff.1 h
        obtain ⟨next, _, h⟩ := Option.bind_eq_some_iff.1 h
        have hproper : item.Proper := hvalue _ _ _ hitem
        split at h
        · obtain ⟨later, hlater, h⟩ := Option.bind_eq_some_iff.1 h
          obtain rfl := Option.some.inj h
          exact List.forall_mem_cons.2 ⟨hproper, hitems _ _ later hlater⟩
        · obtain rfl := Option.some.inj h
          exact List.forall_mem_singleton.2 hproper
        · cases h
    · rw [readPairs] at h
      obtain ⟨⟨keys, rest⟩, _, h⟩ := Option.bind_eq_some_iff.1 h
      obtain ⟨⟨path, key⟩, _, h⟩ := Option.bind_eq_some_iff.1 h
      dsimp only at h
      split at h
      · obtain ⟨⟨held, behind⟩, hheld, h⟩ := Option.bind_eq_some_iff.1 h
        obtain ⟨changed, hchanged, h⟩ := Option.bind_eq_some_iff.1 h
        have hproper : ProperEntries changed :=
          preserves_assign key (hvalue _ _ _ hheld) true path entries changed hchanged hentries
        dsimp only at h
        split at h
        · exact hpairs _ changed _ read h hproper
        · obtain rfl := Option.some.inj h
          exact hproper
        · cases h
      · cases h

/-- A value that is read is proper. -/
theorem proper_of_readValue {limit depth : Nat} {text : Text} {read : Data × Text}
    (h : readValue limit depth text = some read) : read.1.Proper :=
  (proper_of_readers limit).1 depth text read h

/-! ## Documents -/

theorem proper_of_readLines {limit : Nat} {path : List String} {entries read : Entries}
    {text : Text} (h : readLines limit path entries text = some read)
    (hentries : ProperEntries entries) : ProperEntries read := by
  induction limit generalizing path entries text with
  | zero =>
    rw [readLines] at h
    split at h
    · exact Option.some.inj h ▸ hentries
    · cases h
  | succ limit ih =>
    rw [readLines] at h
    split at h
    · exact Option.some.inj h ▸ hentries
    · obtain ⟨⟨keys, rest⟩, _, h⟩ := Option.bind_eq_some_iff.1 h
      obtain ⟨⟨above, key⟩, _, h⟩ := Option.bind_eq_some_iff.1 h
      obtain ⟨changed, hchanged, h⟩ := Option.bind_eq_some_iff.1 h
      exact ih h (preserves_changeAt (preserves_openElement key) above entries changed hchanged
        hentries)
    · obtain ⟨⟨keys, rest⟩, _, h⟩ := Option.bind_eq_some_iff.1 h
      obtain ⟨⟨above, key⟩, _, h⟩ := Option.bind_eq_some_iff.1 h
      obtain ⟨changed, hchanged, h⟩ := Option.bind_eq_some_iff.1 h
      exact ih h (preserves_changeAt (preserves_openTable key) above entries changed hchanged
        hentries)
    · split at h
      · obtain ⟨rest, _, h⟩ := Option.bind_eq_some_iff.1 h
        exact ih h hentries
      · obtain ⟨⟨keys, rest⟩, _, h⟩ := Option.bind_eq_some_iff.1 h
        obtain ⟨⟨way, key⟩, _, h⟩ := Option.bind_eq_some_iff.1 h
        dsimp only at h
        split at h
        · obtain ⟨⟨held, behind⟩, hheld, h⟩ := Option.bind_eq_some_iff.1 h
          obtain ⟨rest, _, h⟩ := Option.bind_eq_some_iff.1 h
          obtain ⟨changed, hchanged, h⟩ := Option.bind_eq_some_iff.1 h
          have hassign := preserves_assign key (proper_of_readValue hheld) true way
          exact ih h (preserves_changeAt hassign path entries changed hchanged hentries)
        · cases h

/-- A document that is read is a proper table. -/
theorem proper_of_read? {text : Text} {document : Data} (h : read? text = some document) :
    document.Proper ∧ document.isTable = true := by
  obtain ⟨entries, hentries, rfl⟩ := Option.map_eq_some_iff.1 h
  exact ⟨proper_of_readLines hentries properEntries_nil, rfl⟩

end Toml

/-! ## Variables -/

namespace Environment

theorem proper_plain (text : Text) : (plain text).Proper := by
  rw [plain]
  split
  · exact .decimal _
  · split
    · exact .number _
    · exact .text _

/-- What has been read at a step of the readers of values. -/
theorem proper_of_readers (limit : Nat) :
    (∀ text read, readValue limit text = .ok read → read.1.Proper) ∧
    (∀ text read, readBare limit text = .ok read → read.1.Proper) ∧
    (∀ text read, readItems limit text = .ok read → ∀ item ∈ read.1, item.Proper) ∧
    (∀ pairs text read, readPairs limit pairs text = .ok read →
      Proper (.table pairs) → Proper (.table read.1)) := by
  induction limit with
  | zero => exact ⟨nofun, nofun, nofun, nofun⟩
  | succ limit ih =>
    obtain ⟨hvalue, hbare, hitems, hpairs⟩ := ih
    refine ⟨fun text read h => ?_, fun text read h => ?_, fun text read h => ?_,
      fun pairs text read h htable => ?_⟩
    · rw [readValue] at h
      obtain ⟨inner, hinner, h⟩ := bind_eq_ok h
      obtain rfl := Except.ok.inj h
      exact hbare _ inner hinner
    · rw [readBare.eq_def] at h
      dsimp only at h
      split at h
      · exact Except.ok.inj h ▸ .bool true
      · exact Except.ok.inj h ▸ .bool false
      · split at h
        · obtain ⟨inner, hinner, rfl⟩ := map_eq_ok h
          exact .list (hitems _ inner hinner)
        · obtain ⟨inner, hinner, rfl⟩ := map_eq_ok h
          exact hpairs [] _ inner hinner Proper.empty
        · obtain ⟨inner, _, rfl⟩ := map_eq_ok h
          exact .text _
        · exact Except.ok.inj h ▸ .text _
        · cases h
        · exact Except.ok.inj h ▸ proper_plain _
    · rw [readItems.eq_def] at h
      dsimp only at h
      split at h
      · obtain rfl := Except.ok.inj h
        exact fun item hitem => absurd hitem List.not_mem_nil
      · obtain ⟨⟨item, rest⟩, hitem, h⟩ := bind_eq_ok h
        have hproper : item.Proper := hvalue _ _ hitem
        dsimp only at h
        split at h
        · obtain ⟨later, hlater, h⟩ := bind_eq_ok h
          obtain rfl := Except.ok.inj h
          exact List.forall_mem_cons.2 ⟨hproper, hitems _ later hlater⟩
        · obtain rfl := Except.ok.inj h
          exact List.forall_mem_singleton.2 hproper
        · cases h
    · rw [readPairs.eq_def] at h
      dsimp only at h
      split at h
      · exact Except.ok.inj h ▸ htable
      · obtain ⟨⟨key, rest⟩, _, h⟩ := bind_eq_ok h
        dsimp only at h
        split at h
        · obtain ⟨⟨held, behind⟩, hheld, h⟩ := bind_eq_ok h
          have hput := htable.put (String.ofList key) (hvalue _ _ hheld)
          dsimp only at h
          split at h
          · exact hpairs _ _ read h hput
          · exact Except.ok.inj h ▸ hput
          · cases h
        · cases h

/-- The value of a variable is proper. -/
theorem proper_of_value? {text : String} {held : Data} (h : value? text = some held) :
    held.Proper := by
  rw [value?] at h
  split at h
  · rename_i hread
    exact Option.some.inj h ▸ (proper_of_readers _).1 _ _ hread
  · cases h
  · exact Option.some.inj h ▸ .text _

end Environment

end Carver
