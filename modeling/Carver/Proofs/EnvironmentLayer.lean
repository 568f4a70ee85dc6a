import Carver.Proofs.JoinedPaths
import Carver.Proofs.ProperDocuments
import Mathlib.Data.List.Basic
import Mathlib.Data.List.Induction

/-!
# What the environment sets

The value of each variable is put under the keys of its name, one variable after the other. If no
name leads on from another one, then nothing that is there is touched: every value stays under its
keys, above it there are tables, and elsewhere there is nothing (`Holds`). So it does not matter in
which order the variables are taken, and at a place above which no variable is put, there is what
the variable that leads there has (`Holds.get?_of_settled`).
-/

namespace Carver

namespace Environment

open Data (Proper)

/-! ## Settings -/

/-- The texts of the variables that are settings, under the keys that their names stand for. -/
def assignments (environment : List (String × String)) : List (List String × String) :=
  environment.filterMap fun pair => (keys? pair.1).map (·, pair.2)

/-- The values of the texts under the keys; none if one cannot be read. -/
def settings? (environment : List (String × String)) : Option (List (List String × Data)) :=
  (assignments environment).mapM fun pair => (value? pair.2).map (pair.1, ·)

/-- The settings laid over each other one after the other. -/
def laid (settings : List (List String × Data)) : Data :=
  settings.foldl (fun below setting => below.merge (nest setting.2 setting.1)) (.table [])

/-- Neither keys lead on from the other ones, and they are not the same. -/
def Diverge (keys others : List String) : Prop :=
  ¬ keys <+: others ∧ ¬ others <+: keys

instance (keys others : List String) : Decidable (Diverge keys others) :=
  inferInstanceAs (Decidable (_ ∧ _))

theorem Diverge.symm {keys others : List String} (h : Diverge keys others) : Diverge others keys :=
  And.symm h

/-- The keys that the names stand for diverge pairwise. -/
def Apart (environment : List (String × String)) : Prop :=
  ((assignments environment).map (·.1)).Pairwise Diverge

instance (environment : List (String × String)) : Decidable (Apart environment) :=
  inferInstanceAs (Decidable (List.Pairwise _ _))

/-- What a variable has at a place: where its keys lead on to the place, what is found in its value
from there. -/
def valueAt (environment : List (String × String)) (path : List String) : Option Data :=
  environment.findSome? fun pair => do
    let keys ← keys? pair.1
    let rest ← keys.isPrefixOf? path
    let held ← value? pair.2
    held.get? rest

theorem assignments_cons (pair : String × String) (environment : List (String × String)) :
    assignments (pair :: environment)
      = ((keys? pair.1).map (·, pair.2)).toList ++ assignments environment := by
  rw [assignments, List.filterMap_cons]
  cases keys? pair.1 <;> rfl

theorem foldlM_eq_laid {step : Data → String × String → Option Data}
    (hstep : ∀ below pair, step below pair = (keys? pair.1).elim (some below) fun keys =>
      (value? pair.2).map fun held => below.merge (nest held keys))
    (environment : List (String × String)) (below : Data) :
    environment.foldlM step below = (settings? environment).map
      (·.foldl (fun below setting => below.merge (nest setting.2 setting.1)) below) := by
  induction environment generalizing below with
  | nil => rfl
  | cons pair environment ih =>
    rw [List.foldlM_cons, hstep, settings?, assignments_cons]
    cases keys? pair.1 with
    | none => exact ih below
    | some keys =>
      rw [Option.map_some, Option.toList_some, List.singleton_append, List.mapM_cons]
      cases value? pair.2 with
      | none => rfl
      | some held =>
        simp only [Option.elim_some, Option.map_some, Option.bind_eq_bind, Option.bind_some, ih]
        rw [settings?]
        cases (assignments environment).mapM fun pair => (value? pair.2).map (pair.1, ·) <;> rfl

/-- The layer of the environment takes the variables in the order of their names. -/
theorem layer?_eq_laid (environment : List (String × String)) :
    layer? environment = (settings? (Keyed.sort environment)).map laid :=
  foldlM_eq_laid (fun below pair => by
    obtain ⟨name, text⟩ := pair
    dsimp only
    cases keys? name <;> rfl) _ _

theorem keys?_ne_nil {name : String} {keys : List String} (h : keys? name = some keys) :
    keys ≠ [] := by
  obtain ⟨rest, _, h⟩ := Option.bind_eq_some_iff.1 h
  dsimp only at h
  split at h
  · cases h
  · obtain rfl := Option.some.inj h
    simp [Text.piecesBy_ne_nil]

/-- Every setting has keys and a proper value. -/
theorem of_settings? {environment : List (String × String)} {settings : List (List String × Data)}
    (h : settings? environment = some settings) :
    settings.map (·.1) = (assignments environment).map (·.1) ∧
      ∀ setting ∈ settings, setting.1 ≠ [] ∧ setting.2.Proper := by
  have hkeys : ∀ pair ∈ assignments environment, pair.1 ≠ [] := by
    intro pair hpair
    obtain ⟨variableOf, _, hname⟩ := List.mem_filterMap.1 hpair
    obtain ⟨keys, hkeys, rfl⟩ := Option.map_eq_some_iff.1 hname
    exact keys?_ne_nil hkeys
  have hread := forall₂_of_mapM h
  constructor
  · refine (map_eq_map_of_forall₂ (hread.imp fun pair setting hsetting => ?_)).symm
    obtain ⟨held, _, rfl⟩ := Option.map_eq_some_iff.1 hsetting
    rfl
  · refine forall_mem_of_forall₂ (((List.forall₂_and_left _ _).2 ⟨hkeys, hread⟩).imp ?_)
    rintro pair setting ⟨hpair, hsetting⟩
    obtain ⟨held, hheld, rfl⟩ := Option.map_eq_some_iff.1 hsetting
    exact ⟨hpair, proper_of_value? hheld⟩

/-! ## A value under keys -/

/-- In the document the value stands under the keys, with tables above it, and elsewhere there is
what `base` has. -/
structure Placed (keys : List String) (held : Data) (base : List String → Option Data)
    (document : Data) : Prop where
  below : ∀ rest, document.get? (keys ++ rest) = held.get? rest
  above : ∀ path, path <+: keys → path ≠ keys →
    ∃ entries, document.get? path = some (.table entries)
  apart : ∀ path, Diverge keys path → document.get? path = base path

theorem Placed.cons {key : String} {keys : List String} {held inner : Data}
    {base : List String → Option Data} {entries : List (String × Data)}
    (hkey : entries.lookup key = some inner)
    (hinner : Placed keys held (fun path => base (key :: path)) inner)
    (hother : ∀ other path, other ≠ key →
      (Data.table entries).get? (other :: path) = base (other :: path)) :
    Placed (key :: keys) held base (.table entries) where
  below rest := by
    rw [List.cons_append, Data.get?_table, hkey]
    exact hinner.below rest
  above path hpath hne := by
    cases path with
    | nil => exact ⟨entries, rfl⟩
    | cons first path =>
      obtain ⟨rfl, hrest⟩ := List.cons_prefix_cons.1 hpath
      rw [Data.get?_table, hkey]
      exact hinner.above path hrest (by simpa using hne)
  apart path hpath := by
    cases path with
    | nil => exact absurd List.nil_prefix hpath.2
    | cons first path =>
      by_cases hfirst : first = key
      · obtain rfl := hfirst
        rw [Data.get?_table, hkey]
        simp only [Diverge, List.cons_prefix_cons, true_and] at hpath
        exact hinner.apart path hpath
      · exact hother first path hfirst

theorem placed_nest (keys : List String) (held : Data) :
    Placed keys held (fun _ => none) (nest held keys) := by
  induction keys with
  | nil =>
    exact ⟨fun _ => rfl, fun path hpath hne => absurd (List.prefix_nil.1 hpath) hne,
      fun path hpath => absurd List.nil_prefix hpath.1⟩
  | cons key keys ih =>
    have hkey : [(key, nest held keys)].lookup key = some (nest held keys) := by
      rw [Keyed.lookup_cons_ite, if_pos rfl]
    refine .cons hkey ih fun other path hother => ?_
    rw [Data.get?_table, Keyed.lookup_cons_ite, if_neg hother]
    rfl

/-- A value that is laid over a document is put into it, if nothing is there in its way. -/
theorem placed_merge_nest {keys : List String} {document : Data} (hopen : document.Open keys)
    (hfree : document.get? keys = none) (held : Data) :
    Placed keys held document.get? (document.merge (nest held keys)) := by
  induction keys generalizing document with
  | nil => cases hfree
  | cons key keys ih =>
    obtain ⟨entries, rfl, hentries⟩ := Data.exists_of_open hopen
    have hmerge : (Data.table entries).merge (nest held (key :: keys))
        = .table (Keyed.put key (Data.laidOver (entries.lookup key) (nest held keys)) entries) := by
      rw [nest, Data.merge, Data.mergeEntries_cons, Data.mergeEntries]
    have hkey :
        (Keyed.put key (Data.laidOver (entries.lookup key) (nest held keys)) entries).lookup key
          = some (Data.laidOver (entries.lookup key) (nest held keys)) := by
      rw [Keyed.lookup_put, if_pos rfl]
    rw [hmerge]
    refine .cons hkey ?_ ?_
    · rw [Data.get?_table] at hfree
      simp only [Data.get?_table]
      cases hinner : entries.lookup key with
      | none => exact placed_nest keys held
      | some inner =>
        rw [hinner] at hfree
        exact ih (hentries inner hinner) hfree
    · intro other path hother
      rw [Data.get?_table, Data.get?_table, Keyed.lookup_put, if_neg hother]

/-! ## All values under their keys -/

/-- In the document every value stands under its keys, with tables above it, and elsewhere there is
nothing. -/
structure Holds (settings : List (List String × Data)) (document : Data) : Prop where
  table : document.isTable = true
  below : ∀ setting ∈ settings, ∀ rest, document.get? (setting.1 ++ rest) = setting.2.get? rest
  above : ∀ setting ∈ settings, ∀ path, path <+: setting.1 → path ≠ setting.1 →
    ∃ entries, document.get? path = some (.table entries)
  apart : ∀ path, path ≠ [] → (∀ setting ∈ settings, Diverge setting.1 path) →
    document.get? path = none

namespace Holds

variable {settings : List (List String × Data)} {document : Data}

theorem perm {others : List (List String × Data)} (h : Holds settings document)
    (hperm : settings.Perm others) : Holds others document where
  table := h.table
  below setting hsetting := h.below setting (hperm.mem_iff.2 hsetting)
  above setting hsetting := h.above setting (hperm.mem_iff.2 hsetting)
  apart path hne hpath := h.apart path hne fun setting hsetting =>
    hpath setting (hperm.mem_iff.1 hsetting)

/-- Keys that diverge from all others are free. -/
theorem open_keys {keys : List String} (h : Holds settings document)
    (hkeys : ∀ setting ∈ settings, Diverge setting.1 keys) : document.Open keys := by
  refine Data.open_of_tables fun path hpath hne value hvalue => ?_
  by_cases hroot : path = []
  · rw [hroot] at hvalue
    exact Option.some.inj hvalue ▸ h.table
  · by_cases hdiverge : ∀ setting ∈ settings, Diverge setting.1 path
    · rw [h.apart path hroot hdiverge] at hvalue
      cases hvalue
    · simp only [not_forall] at hdiverge
      obtain ⟨setting, hsetting, hdiverge⟩ := hdiverge
      have hnot : ¬ setting.1 <+: path :=
        fun hlead => (hkeys setting hsetting).1 (hlead.trans hpath)
      have habove : path <+: setting.1 := by
        by_contra habove
        exact hdiverge ⟨hnot, habove⟩
      obtain ⟨entries, hentries⟩ := h.above setting hsetting path habove
        fun heq => hnot (heq ▸ List.prefix_rfl)
      rw [hentries] at hvalue
      exact Option.some.inj hvalue ▸ rfl

/-- A value under keys that diverge from all others takes its place among them. -/
theorem concat {keys : List String} (h : Holds settings document) (hne : keys ≠ [])
    (hkeys : ∀ setting ∈ settings, Diverge setting.1 keys) (held : Data) :
    Holds (settings ++ [(keys, held)]) (document.merge (nest held keys)) := by
  have hplaced : Placed keys held document.get? (document.merge (nest held keys)) :=
    placed_merge_nest (h.open_keys hkeys) (h.apart keys hne hkeys) held
  refine ⟨?_, List.forall_mem_append.2 ⟨fun setting hsetting rest => ?_, ?_⟩,
    List.forall_mem_append.2 ⟨fun setting hsetting path hpath hother => ?_, ?_⟩,
    fun path hpath hall => ?_⟩
  · obtain ⟨entries, hentries⟩ := hplaced.above [] List.nil_prefix hne.symm
    exact Option.some.inj hentries ▸ rfl
  · obtain ⟨hkept, hkept'⟩ := hkeys setting hsetting
    rw [hplaced.apart, h.below setting hsetting]
    refine ⟨fun hlead => ?_, fun hlead => hkept ((List.prefix_append _ _).trans hlead)⟩
    exact (List.prefix_or_prefix_of_prefix hlead (List.prefix_append _ _)).elim hkept' hkept
  · exact List.forall_mem_singleton.2 hplaced.below
  · obtain ⟨hkept, hkept'⟩ := hkeys setting hsetting
    have hnot : ¬ keys <+: path := fun hlead => hkept' (hlead.trans hpath)
    by_cases habove : path <+: keys
    · exact hplaced.above path habove fun heq => hnot (heq ▸ List.prefix_rfl)
    · rw [hplaced.apart path ⟨hnot, habove⟩]
      exact h.above setting hsetting path hpath hother
  · exact List.forall_mem_singleton.2 hplaced.above
  · rw [List.forall_mem_append, List.forall_mem_singleton] at hall
    rw [hplaced.apart path hall.2]
    exact h.apart path hpath hall.1

end Holds

/-- Settings whose keys diverge are all held, whatever their order. -/
theorem holds_laid {settings : List (List String × Data)}
    (hne : ∀ setting ∈ settings, setting.1 ≠ [])
    (hapart : (settings.map (·.1)).Pairwise Diverge) : Holds settings (laid settings) := by
  induction settings using List.reverseRecOn with
  | nil =>
    refine ⟨rfl, nofun, nofun, fun path hpath _ => ?_⟩
    obtain ⟨key, rest, rfl⟩ := List.exists_cons_of_ne_nil hpath
    rfl
  | append_singleton settings setting ih =>
    rw [List.forall_mem_append, List.forall_mem_singleton] at hne
    rw [List.map_append, List.pairwise_append] at hapart
    rw [laid, List.foldl_append]
    have hkeys : ∀ other ∈ settings, Diverge other.1 setting.1 := fun other hother =>
      hapart.2.2 other.1 (List.mem_map_of_mem hother) setting.1 List.mem_cons_self
    exact (ih hne.1 hapart.1).concat hne.2 hkeys setting.2

/-- What is made up of proper values is proper. -/
theorem proper_laid {settings : List (List String × Data)}
    (h : ∀ setting ∈ settings, setting.2.Proper) : (laid settings).Proper := by
  have hnest : ∀ (keys : List String) (held : Data), held.Proper → (nest held keys).Proper := by
    intro keys held hheld
    induction keys with
    | nil => exact hheld
    | cons key keys ih =>
      exact .table (List.pairwise_singleton _ _) (List.forall_mem_singleton.2 ih)
  induction settings using List.reverseRecOn with
  | nil => exact Proper.empty
  | append_singleton settings setting ih =>
    rw [List.forall_mem_append, List.forall_mem_singleton] at h
    rw [laid, List.foldl_append]
    exact (ih h.1).merge (hnest setting.1 setting.2 h.2)

/-! ## What is found at a place -/

/-- What the settings have at a place. -/
def found (settings : List (List String × Data)) (path : List String) : Option Data :=
  settings.findSome? fun setting => (setting.1.isPrefixOf? path).bind setting.2.get?

theorem bind_isPrefixOf?_eq_none {setting : List String × Data} {path : List String}
    (h : ¬ setting.1 <+: path) : (setting.1.isPrefixOf? path).bind setting.2.get? = none := by
  cases hrest : setting.1.isPrefixOf? path with
  | none => rfl
  | some rest => exact absurd ⟨rest, List.isPrefixOf?_eq_some_iff_append_eq.1 hrest⟩ h

theorem found_eq_none {settings : List (List String × Data)} {path : List String}
    (h : ∀ setting ∈ settings, ¬ setting.1 <+: path) : found settings path = none :=
  List.findSome?_eq_none_iff.2 fun setting hsetting => bind_isPrefixOf?_eq_none (h setting hsetting)

/-- Of keys that diverge only one leads to a place. -/
theorem found_append {settings : List (List String × Data)}
    (hapart : (settings.map (·.1)).Pairwise Diverge) {setting : List String × Data}
    (hsetting : setting ∈ settings) (rest : List String) :
    found settings (setting.1 ++ rest) = setting.2.get? rest := by
  have hother : ∀ other : List String × Data, Diverge other.1 setting.1 →
      ¬ other.1 <+: setting.1 ++ rest := fun other hdiverge hlead =>
    (List.prefix_or_prefix_of_prefix hlead (List.prefix_append _ _)).elim hdiverge.1 hdiverge.2
  induction settings with
  | nil => cases hsetting
  | cons first settings ih =>
    rw [List.map_cons, List.pairwise_cons] at hapart
    rw [found, List.findSome?_cons]
    rcases List.mem_cons.1 hsetting with rfl | hmem
    · have hrest : found settings (setting.1 ++ rest) = none := found_eq_none fun other hmem =>
        hother other (hapart.1 other.1 (List.mem_map_of_mem hmem)).symm
      rw [List.isPrefixOf?_eq_some_iff_append_eq.2 rfl, Option.bind_some, ← found, hrest]
      cases setting.2.get? rest <;> rfl
    · rw [bind_isPrefixOf?_eq_none
        (hother first (hapart.1 setting.1 (List.mem_map_of_mem hmem)))]
      exact ih hapart.2 hmem

theorem valueAt_eq_found {environment : List (String × String)}
    {settings : List (List String × Data)} (h : settings? environment = some settings)
    (path : List String) : valueAt environment path = found settings path := by
  induction environment generalizing settings with
  | nil =>
    obtain rfl := Option.some.inj h
    rfl
  | cons pair environment ih =>
    rw [settings?, assignments_cons] at h
    rw [valueAt, List.findSome?_cons]
    cases hkeys : keys? pair.1 with
    | none =>
      rw [hkeys] at h
      exact ih h
    | some keys =>
      rw [hkeys, Option.map_some, Option.toList_some, List.singleton_append, List.mapM_cons] at h
      obtain ⟨setting, hsetting, h⟩ := Option.bind_eq_some_iff.1 h
      obtain ⟨others, hothers, h⟩ := Option.bind_eq_some_iff.1 h
      obtain rfl := Option.some.inj h
      obtain ⟨held, hheld, rfl⟩ := Option.map_eq_some_iff.1 hsetting
      rw [found, List.findSome?_cons]
      simp only [Option.bind_eq_bind, Option.bind_some, hheld]
      rw [← found, ← ih hothers, valueAt]
      rfl

/-- No keys lead beyond the place. -/
def Settled (settings : List (List String × Data)) (path : List String) : Prop :=
  ∀ setting ∈ settings, path <+: setting.1 → path = setting.1

namespace Holds

variable {settings : List (List String × Data)} {document : Data} {path : List String}

/-- Keys lead beyond the place only if a table is there. -/
theorem settled_of_leaf (h : Holds settings document)
    (hleaf : ∀ value ∈ document.get? path, value.isTable = false) : Settled settings path := by
  intro setting hsetting hpath
  by_contra hne
  obtain ⟨entries, hentries⟩ := h.above setting hsetting path hpath hne
  cases hleaf _ hentries

/-- At a place beyond which no keys lead there is what the settings have there. -/
theorem get?_of_settled (h : Holds settings document) (hpath : path ≠ [])
    (hapart : (settings.map (·.1)).Pairwise Diverge) (hsettled : Settled settings path) :
    document.get? path = found settings path := by
  by_cases hlead : ∃ setting ∈ settings, setting.1 <+: path
  · obtain ⟨setting, hsetting, rest, rfl⟩ := hlead
    rw [found_append hapart hsetting, h.below setting hsetting]
  · simp only [not_exists, not_and] at hlead
    rw [found_eq_none hlead]
    refine h.apart path hpath fun setting hsetting => ⟨hlead setting hsetting, fun habove => ?_⟩
    exact hlead setting hsetting (hsettled setting hsetting habove ▸ List.prefix_rfl)

end Holds

/-! ## The order of the variables -/

theorem mapM_perm {α β : Type} {f : α → Option β} {items others : List α} {images : List β}
    (hperm : items.Perm others) (h : items.mapM f = some images) :
    ∃ images', others.mapM f = some images' ∧ images.Perm images' := by
  induction hperm generalizing images with
  | nil => exact ⟨images, h, List.Perm.refl _⟩
  | cons item _ ih =>
    rw [List.mapM_cons] at h
    obtain ⟨image, himage, h⟩ := Option.bind_eq_some_iff.1 h
    obtain ⟨rest, hrest, h⟩ := Option.bind_eq_some_iff.1 h
    obtain rfl := Option.some.inj h
    obtain ⟨rest', hrest', hperm⟩ := ih hrest
    refine ⟨image :: rest', ?_, hperm.cons image⟩
    rw [List.mapM_cons, himage, hrest']
    rfl
  | swap first second rest =>
    rw [List.mapM_cons, List.mapM_cons] at h
    obtain ⟨image, himage, h⟩ := Option.bind_eq_some_iff.1 h
    obtain ⟨images', himages, h⟩ := Option.bind_eq_some_iff.1 h
    obtain ⟨image', himage', himages⟩ := Option.bind_eq_some_iff.1 himages
    obtain ⟨rest', hrest', himages⟩ := Option.bind_eq_some_iff.1 himages
    obtain rfl := Option.some.inj h
    obtain rfl := Option.some.inj himages
    refine ⟨image' :: image :: rest', ?_, List.Perm.swap _ _ _⟩
    rw [List.mapM_cons, List.mapM_cons, himage, himage', hrest']
    rfl
  | trans _ _ ih ih' =>
    obtain ⟨middle, hmiddle, hperm⟩ := ih h
    obtain ⟨last, hlast, hperm'⟩ := ih' hmiddle
    exact ⟨last, hlast, hperm.trans hperm'⟩

theorem settings?_perm {environment others : List (String × String)}
    {settings : List (List String × Data)}
    (hperm : (assignments environment).Perm (assignments others))
    (h : settings? environment = some settings) :
    ∃ settings', settings? others = some settings' ∧ settings.Perm settings' :=
  mapM_perm hperm h

theorem assignments_filter (environment : List (String × String)) :
    assignments (environment.filter fun pair => (keys? pair.1).isSome)
      = assignments environment := by
  rw [assignments, List.filterMap_filter]
  refine List.filterMap_congr fun pair _ => ?_
  cases keys? pair.1 <;> rfl

theorem distinct_filter {environment : List (String × String)} (hapart : Apart environment) :
    Keyed.Distinct (environment.filter fun pair => (keys? pair.1).isSome) := by
  rw [Apart, assignments, List.map_filterMap, List.pairwise_filterMap] at hapart
  rw [Keyed.Distinct, List.Nodup, List.pairwise_map, List.pairwise_filter]
  refine hapart.imp fun {pair other} hdiverge hpair hother hname => ?_
  obtain ⟨keys, hkeys⟩ := Option.isSome_iff_exists.1 hpair
  have hsame : keys? other.1 = some keys := hname ▸ hkeys
  exact (hdiverge keys (by rw [hkeys]; rfl) keys (by rw [hsame]; rfl)).1 List.prefix_rfl

/-- Of variables whose keys diverge none is lost when they are sorted by name. -/
theorem assignments_sort_perm {environment : List (String × String)} (hapart : Apart environment) :
    (assignments (Keyed.sort environment)).Perm (assignments environment) := by
  rw [← assignments_filter, ← assignments_filter environment]
  exact (Keyed.filter_sort_perm (p := fun name => (keys? name).isSome)
    (distinct_filter hapart)).filterMap _

/-- The layer of the environment is the same in whatever order the variables are listed. -/
theorem layer?_perm {environment listed : List (String × String)} (hapart : Apart environment)
    (hperm : listed.Perm environment) : layer? listed = layer? environment := by
  have hlisted : Apart listed :=
    List.Pairwise.perm hapart ((hperm.symm.filterMap _).map _) Diverge.symm
  have hsorted : ∀ others : List (String × String),
      Keyed.Ascending ((Keyed.sort others).filter fun pair => (keys? pair.1).isSome) :=
    fun others => List.Pairwise.sublist (List.filter_sublist.map _) (Keyed.ascending_sort others)
  have hfilter : ((Keyed.sort listed).filter fun pair => (keys? pair.1).isSome).Perm
      ((Keyed.sort environment).filter fun pair => (keys? pair.1).isSome) :=
    (Keyed.filter_sort_perm (p := fun name => (keys? name).isSome) (distinct_filter hlisted)).trans
      ((hperm.filter _).trans (Keyed.filter_sort_perm (p := fun name => (keys? name).isSome)
        (distinct_filter hapart)).symm)
  rw [layer?_eq_laid, layer?_eq_laid, settings?, settings?, ← assignments_filter,
    ← assignments_filter (Keyed.sort environment),
    Keyed.eq_of_perm (hsorted listed) (hsorted environment) hfilter]

end Environment

end Carver
