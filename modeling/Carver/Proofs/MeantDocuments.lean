import Carver.Config.Boxed
import Carver.Proofs.MergedTables

/-!
# What a document means

In a file a table can be a box, which means the value in it. What a proper document means is proper
(`Proper.of_unboxEach?`): no key is added to a table, and a value that was in a box comes from the
document. A document without boxes below its outermost table means itself, if it means anything
(`Literal.eq_of_unboxEach?`).
-/

namespace Carver.Data

/-! ## Entries -/

/-- Each of the entries stands for one under the same key, with the value that is meant. -/
def Means (entries meant : List (String × Data)) : Prop :=
  List.Forall₂ (fun entry held => entry.1 = held.1 ∧ unbox? entry.2 = some held.2) entries meant

theorem means_of_unboxEntries? {entries meant : List (String × Data)}
    (h : unboxEntries? entries = some meant) : Means entries meant := by
  induction entries generalizing meant with
  | nil =>
    obtain rfl := Option.some.inj h
    exact .nil
  | cons entry entries ih =>
    obtain ⟨_, _, h⟩ := Option.bind_eq_some_iff.1 h
    obtain ⟨first, hfirst, h⟩ := Option.bind_eq_some_iff.1 h
    obtain ⟨others, hothers, h⟩ := Option.bind_eq_some_iff.1 h
    obtain rfl := Option.some.inj h
    exact .cons ⟨rfl, hfirst⟩ (ih hothers)

theorem means_of_unboxEach? {entries : List (String × Data)} {layer : Data}
    (h : (table entries).unboxEach? = some layer) :
    ∃ meant, layer = .table meant ∧ Means entries meant := by
  obtain ⟨meant, hmeant, rfl⟩ := Option.map_eq_some_iff.1 h
  refine ⟨meant, rfl, (forall₂_of_mapM hmeant).imp fun entry held hheld => ?_⟩
  obtain ⟨value, hvalue, rfl⟩ := Option.map_eq_some_iff.1 hheld
  exact ⟨rfl, hvalue⟩

theorem forall₂_of_unboxItems? {items meant : List Data} (h : unboxItems? items = some meant) :
    List.Forall₂ (fun item held => unbox? item = some held) items meant := by
  induction items generalizing meant with
  | nil =>
    obtain rfl := Option.some.inj h
    exact .nil
  | cons item items ih =>
    obtain ⟨first, hfirst, h⟩ := Option.bind_eq_some_iff.1 h
    obtain ⟨others, hothers, h⟩ := Option.bind_eq_some_iff.1 h
    obtain rfl := Option.some.inj h
    exact .cons hfirst (ih hothers)

namespace Means

variable {entries meant : List (String × Data)}

/-- The keys are the same. -/
theorem keys (h : Means entries meant) : entries.map (·.1) = meant.map (·.1) :=
  map_eq_map_of_forall₂ (h.imp fun _ _ hentry => hentry.1)

theorem forall_mem {P : Data → Prop} (h : Means entries meant)
    (hmeans : ∀ entry ∈ entries, ∀ {value : Data}, unbox? entry.2 = some value → P value) :
    ∀ entry ∈ meant, P entry.2 :=
  forall_mem_of_forall₂ (((List.forall₂_and_left _ _).2 ⟨hmeans, h⟩).imp
    fun _ _ hentry => hentry.1 hentry.2.2)

/-- The entries are the same if all values mean themselves. -/
theorem eq (h : Means entries meant)
    (hmeans : ∀ entry ∈ entries, ∀ {value : Data}, unbox? entry.2 = some value → value = entry.2) :
    meant = entries := by
  have hentries : List.Forall₂ (fun entry held => entry = held) entries meant :=
    ((List.forall₂_and_left _ _).2 ⟨hmeans, h⟩).imp
      fun _ _ hentry => Prod.ext hentry.2.1 (hentry.1 hentry.2.2).symm
  rw [eq_map_of_forall₂ hentries, List.map_id']

end Means

/-! ## Proper documents -/

theorem Proper.of_means {entries meant : List (String × Data)} (h : Proper (.table entries))
    (hmeans : Means entries meant)
    (hvalues : ∀ entry ∈ entries, ∀ {value : Data}, unbox? entry.2 = some value → value.Proper) :
    Proper (.table meant) :=
  .table (by rw [Keyed.Distinct, ← hmeans.keys]; exact h.distinct) (hmeans.forall_mem hvalues)

/-- What a proper value means is proper. -/
theorem Proper.of_unbox? {value meant : Data} (h : value.Proper)
    (hmeant : unbox? value = some meant) : meant.Proper := by
  induction h generalizing meant with
  | @list items _ ih =>
    obtain ⟨held, hheld, rfl⟩ := Option.map_eq_some_iff.1 hmeant
    exact .list (forall_mem_of_forall₂
      (((List.forall₂_and_left _ _).2 ⟨ih, forall₂_of_unboxItems? hheld⟩).imp
        fun _ _ hitem => hitem.1 hitem.2))
  | @table entries hdistinct hentries ih =>
    obtain ⟨held, hheld, rfl⟩ := Option.map_eq_some_iff.1 hmeant
    have htable : Proper (.table held) :=
      (Proper.table hdistinct hentries).of_means (means_of_unboxEntries? hheld) ih
    rw [unboxTable]
    cases hbox : held.lookup boxKey with
    | none => exact htable
    | some value => exact htable.of_lookup hbox
  | _ =>
    obtain rfl := Option.some.inj hmeant
    constructor

/-- What a proper document means is proper, and a table if the document is one. -/
theorem Proper.of_unboxEach? {document layer : Data} (h : document.Proper)
    (hlayer : document.unboxEach? = some layer) :
    layer.Proper ∧ layer.isTable = document.isTable := by
  cases h with
  | @table entries hdistinct hentries =>
    obtain ⟨meant, rfl, hmeans⟩ := means_of_unboxEach? hlayer
    exact ⟨(Proper.table hdistinct hentries).of_means hmeans
      fun entry hentry => (hentries entry hentry).of_unbox?, rfl⟩
  | _ =>
    obtain rfl := Option.some.inj hlayer
    exact ⟨by constructor <;> assumption, rfl⟩

/-! ## Documents without boxes -/

/-- No table in the value is a box. -/
inductive Boxless : Data → Prop where
  | null : Boxless .null
  | bool (value : Bool) : Boxless (.bool value)
  | number (value : Int) : Boxless (.number value)
  | decimal (text : String) : Boxless (.decimal text)
  | text (value : String) : Boxless (.text value)
  | list {items : List Data} (hitems : ∀ item ∈ items, Boxless item) : Boxless (.list items)
  | table {entries : List (String × Data)} (hkey : entries.lookup boxKey = none)
      (hentries : ∀ entry ∈ entries, Boxless entry.2) : Boxless (.table entries)

/-- A value without boxes means itself, if it means anything. -/
theorem Boxless.eq_of_unbox? {value meant : Data} (h : value.Boxless)
    (hmeant : unbox? value = some meant) : meant = value := by
  induction h generalizing meant with
  | @list items _ ih =>
    obtain ⟨held, hheld, rfl⟩ := Option.map_eq_some_iff.1 hmeant
    have hitems : List.Forall₂ (fun item value => item = value) items held :=
      ((List.forall₂_and_left _ _).2 ⟨ih, forall₂_of_unboxItems? hheld⟩).imp
        fun _ _ hitem => (hitem.1 hitem.2).symm
    rw [eq_map_of_forall₂ hitems, List.map_id']
  | @table entries hkey _ ih =>
    obtain ⟨held, hheld, rfl⟩ := Option.map_eq_some_iff.1 hmeant
    rw [(means_of_unboxEntries? hheld).eq ih, unboxTable, hkey, Option.getD_none]
  | _ => exact (Option.some.inj hmeant).symm

/-- No table below the outermost one is a box. -/
def Literal (document : Data) : Prop :=
  ∀ entries, document = .table entries → ∀ entry ∈ entries, entry.2.Boxless

/-- A literal document means itself, if it means anything. -/
theorem Literal.eq_of_unboxEach? {document layer : Data} (h : document.Literal)
    (hlayer : document.unboxEach? = some layer) : layer = document := by
  cases document with
  | table entries =>
    obtain ⟨meant, rfl, hmeans⟩ := means_of_unboxEach? hlayer
    rw [hmeans.eq fun entry hentry => (h entries rfl entry hentry).eq_of_unbox?]
  | _ => exact (Option.some.inj hlayer).symm

end Carver.Data
