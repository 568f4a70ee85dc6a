import Carver.Plan.Document
import Mathlib.Data.List.Forall2
import Mathlib.Data.List.Nodup

/-!
# Tables laid over tables

A list of pairs is read by key. Putting pairs into a list one after the other, whether at the end or
in ascending order, lays them over it key by key (`lookup_foldl`): `Keyed.overlay` keeps the order
of the list below, and `Keyed.sort` makes an ascending one. Where the values of two tables are lists
of texts, laying the one document over the other is the same (`Data.mergeEntries_texts`).
-/

namespace Carver

namespace Keyed

variable {α β : Type}

/-- No two pairs have the same key. -/
def Distinct (pairs : List (String × α)) : Prop :=
  (pairs.map (·.1)).Nodup

/-- The pairs ascend by key. -/
def Ascending (pairs : List (String × α)) : Prop :=
  (pairs.map (·.1)).Pairwise (· < ·)

instance (pairs : List (String × α)) : Decidable (Distinct pairs) :=
  inferInstanceAs (Decidable (List.Nodup _))

instance (pairs : List (String × α)) : Decidable (Ascending pairs) :=
  inferInstanceAs (Decidable (List.Pairwise _ _))

theorem Ascending.distinct {pairs : List (String × α)} (h : Ascending pairs) : Distinct pairs :=
  List.Pairwise.imp Std.ne_of_lt h

theorem lookup_eq_none_iff_not_mem {pairs : List (String × α)} {key : String} :
    pairs.lookup key = none ↔ key ∉ pairs.map (·.1) := by
  rw [List.lookup_eq_none_iff, List.mem_map]
  constructor
  · rintro h ⟨pair, hpair, rfl⟩
    simpa using h pair hpair
  · intro h pair hpair
    rw [bne_iff_ne]
    rintro rfl
    exact h ⟨pair, hpair, rfl⟩

theorem lookup_cons_ite (pair : String × α) (pairs : List (String × α)) (key : String) :
    (pair :: pairs).lookup key = if key = pair.1 then some pair.2 else pairs.lookup key := by
  rw [List.lookup_cons]
  by_cases hkey : key = pair.1
  · rw [if_pos hkey, beq_iff_eq.2 hkey]
  · rw [if_neg hkey, beq_false_of_ne hkey]

theorem mem_keys_iff_of_lookup {held pairs : List (String × α)} {key other : String} {value : α}
    (h : held.lookup other = if other = key then some value else pairs.lookup other) :
    other ∈ held.map (·.1) ↔ other = key ∨ other ∈ pairs.map (·.1) := by
  rw [← Decidable.not_iff_not, ← lookup_eq_none_iff_not_mem, h, not_or,
    ← lookup_eq_none_iff_not_mem]
  split <;> simp [*]

theorem mem_of_lookup {key : String} {value : α} {pairs : List (String × α)}
    (h : pairs.lookup key = some value) : (key, value) ∈ pairs := by
  obtain ⟨before, after, rfl, _⟩ := List.lookup_eq_some_iff.1 h
  exact List.mem_append_right _ List.mem_cons_self

theorem lookup_eq_some_iff {pairs : List (String × α)} (h : Distinct pairs) {key : String}
    {value : α} : pairs.lookup key = some value ↔ (key, value) ∈ pairs := by
  refine ⟨mem_of_lookup, fun hmem => ?_⟩
  obtain ⟨before, after, rfl⟩ := List.append_of_mem hmem
  rw [Distinct, List.map_append, List.map_cons] at h
  have hbefore : before.lookup key = none := by
    rw [lookup_eq_none_iff_not_mem]
    exact fun hkey => (List.nodup_append.1 h).2.2 key hkey key List.mem_cons_self rfl
  rw [List.lookup_append, hbefore, lookup_cons_ite, if_pos rfl]
  rfl

/-! ## Single pairs -/

theorem lookup_put (key : String) (value : α) (pairs : List (String × α)) (other : String) :
    (put key value pairs).lookup other
      = if other = key then some value else pairs.lookup other := by
  induction pairs with
  | nil => exact lookup_cons_ite (key, value) [] other
  | cons pair pairs ih =>
    obtain ⟨first, held⟩ := pair
    rw [put]
    split
    · rename_i hkey
      rw [lookup_cons_ite, lookup_cons_ite, ← hkey]
      split <;> rfl
    · rename_i hkey
      rw [lookup_cons_ite, lookup_cons_ite, ih]
      by_cases hother : other = first
      · rw [hother, if_pos rfl, if_neg (Ne.symm hkey), if_pos rfl]
      · rw [if_neg hother, if_neg hother]

theorem lookup_insert (key : String) (value : α) (pairs : List (String × α)) (other : String) :
    (insert key value pairs).lookup other
      = if other = key then some value else pairs.lookup other := by
  induction pairs with
  | nil => exact lookup_cons_ite (key, value) [] other
  | cons pair pairs ih =>
    obtain ⟨first, held⟩ := pair
    rw [insert]
    split
    · exact lookup_cons_ite (key, value) _ other
    · split
      · rename_i hkey
        rw [lookup_cons_ite, lookup_cons_ite, ← hkey]
        split <;> rfl
      · rename_i hkey
        rw [lookup_cons_ite, lookup_cons_ite, ih]
        by_cases hother : other = first
        · rw [hother, if_pos rfl, if_neg (Ne.symm hkey), if_pos rfl]
        · rw [if_neg hother, if_neg hother]

theorem mem_keys_put {key other : String} {value : α} {pairs : List (String × α)} :
    other ∈ (put key value pairs).map (·.1) ↔ other = key ∨ other ∈ pairs.map (·.1) :=
  mem_keys_iff_of_lookup (lookup_put key value pairs other)

theorem distinct_put (key : String) (value : α) {pairs : List (String × α)}
    (h : Distinct pairs) : Distinct (put key value pairs) := by
  induction pairs with
  | nil => simp [put, Distinct]
  | cons pair pairs ih =>
    obtain ⟨first, held⟩ := pair
    rw [Distinct, List.map_cons, List.nodup_cons] at h
    rw [put]
    split
    · rename_i hkey
      rw [Distinct, List.map_cons, hkey, List.nodup_cons]
      exact h
    · rename_i hkey
      rw [Distinct, List.map_cons, List.nodup_cons, mem_keys_put, not_or]
      exact ⟨⟨Ne.symm hkey, h.1⟩, ih h.2⟩

theorem mem_keys_insert {key other : String} {value : α} {pairs : List (String × α)} :
    other ∈ (insert key value pairs).map (·.1) ↔ other = key ∨ other ∈ pairs.map (·.1) :=
  mem_keys_iff_of_lookup (lookup_insert key value pairs other)

theorem ascending_insert (key : String) (value : α) {pairs : List (String × α)}
    (h : Ascending pairs) : Ascending (insert key value pairs) := by
  induction pairs with
  | nil => simp [insert, Ascending]
  | cons pair pairs ih =>
    obtain ⟨first, held⟩ := pair
    have hcons := h
    rw [Ascending, List.map_cons, List.pairwise_cons] at hcons
    rw [insert]
    split
    · rename_i hlt
      rw [Ascending, List.map_cons, List.map_cons, List.pairwise_cons, List.forall_mem_cons]
      exact ⟨⟨hlt, fun other hother => Std.lt_trans hlt (hcons.1 other hother)⟩, h⟩
    · rename_i hlt
      split
      · rename_i hkey
        rw [Ascending, List.map_cons, hkey, List.pairwise_cons]
        exact hcons
      · rename_i hkey
        have hgt : first < key := by
          rcases Std.lt_trichotomy first key with hfirst | hfirst | hfirst
          · exact hfirst
          · exact absurd hfirst.symm hkey
          · exact absurd hfirst hlt
        rw [Ascending, List.map_cons, List.pairwise_cons]
        refine ⟨fun other hother => ?_, ih hcons.2⟩
        rcases mem_keys_insert.1 hother with rfl | hother
        · exact hgt
        · exact hcons.1 other hother

theorem mem_put {key : String} {value : α} {pairs : List (String × α)} {pair : String × α}
    (h : pair ∈ put key value pairs) : pair = (key, value) ∨ pair ∈ pairs := by
  induction pairs with
  | nil => exact .inl (List.mem_singleton.1 h)
  | cons head pairs ih =>
    obtain ⟨first, held⟩ := head
    rw [put] at h
    split at h
    · exact (List.mem_cons.1 h).imp_right (List.mem_cons_of_mem _)
    · rcases List.mem_cons.1 h with rfl | h
      · exact .inr List.mem_cons_self
      · exact (ih h).imp_right (List.mem_cons_of_mem _)

/-! ## Pairs at the end -/

theorem lookup_append_self {pairs : List (String × α)} {key : String}
    (hfresh : pairs.lookup key = none) (value : α) :
    (pairs ++ [(key, value)]).lookup key = some value := by
  rw [List.lookup_append, hfresh, lookup_cons_ite, if_pos rfl]
  rfl

theorem put_of_lookup_eq_none {pairs : List (String × α)} {key : String}
    (hfresh : pairs.lookup key = none) (value : α) :
    put key value pairs = pairs ++ [(key, value)] := by
  induction pairs with
  | nil => rfl
  | cons pair pairs ih =>
    rw [lookup_cons_ite] at hfresh
    split at hfresh
    · cases hfresh
    · rename_i hkey
      rw [put, if_neg hkey, ih hfresh, List.cons_append]

theorem put_append_self {pairs : List (String × α)} {key : String}
    (hfresh : pairs.lookup key = none) (old value : α) :
    put key value (pairs ++ [(key, old)]) = pairs ++ [(key, value)] := by
  induction pairs with
  | nil => exact if_pos rfl
  | cons pair pairs ih =>
    rw [lookup_cons_ite] at hfresh
    split at hfresh
    · cases hfresh
    · rename_i hkey
      rw [List.cons_append, put, if_neg hkey, ih hfresh, List.cons_append]

/-! ## Several pairs -/

/-- Puts pairs one after the other. -/
def overlay (lower upper : List (String × α)) : List (String × α) :=
  upper.foldl (fun held pair => put pair.1 pair.2 held) lower

/-- Pairs that are put one after the other lie over what was there. -/
theorem lookup_foldl {step : List (String × α) → String × α → List (String × α)}
    (hstep : ∀ held pair other, (step held pair).lookup other
      = if other = pair.1 then some pair.2 else held.lookup other)
    {pairs : List (String × α)} (hpairs : Distinct pairs) (held : List (String × α))
    (other : String) :
    (pairs.foldl step held).lookup other = (pairs.lookup other).or (held.lookup other) := by
  induction pairs generalizing held with
  | nil => rfl
  | cons pair pairs ih =>
    rw [Distinct, List.map_cons, List.nodup_cons] at hpairs
    rw [List.foldl_cons, ih hpairs.2, hstep, lookup_cons_ite]
    by_cases hother : other = pair.1
    · rw [if_pos hother, if_pos hother, hother, lookup_eq_none_iff_not_mem.2 hpairs.1]
      rfl
    · rw [if_neg hother, if_neg hother]

theorem lookup_overlay (lower : List (String × α)) {upper : List (String × α)}
    (hupper : Distinct upper) (key : String) :
    (overlay lower upper).lookup key = (upper.lookup key).or (lower.lookup key) :=
  lookup_foldl (fun held pair other => lookup_put pair.1 pair.2 held other) hupper lower key

theorem distinct_overlay {lower : List (String × α)} (hlower : Distinct lower)
    (upper : List (String × α)) : Distinct (overlay lower upper) := by
  induction upper generalizing lower with
  | nil => exact hlower
  | cons pair upper ih => exact ih (distinct_put pair.1 pair.2 hlower)

theorem ascending_sort (pairs : List (String × α)) : Ascending (sort pairs) := by
  have hfold : ∀ held : List (String × α), Ascending held →
      Ascending (pairs.foldl (fun sorted pair => insert pair.1 pair.2 sorted) held) := by
    induction pairs with
    | nil => exact fun held hheld => hheld
    | cons pair pairs ih => exact fun held hheld => ih _ (ascending_insert pair.1 pair.2 hheld)
  exact hfold [] .nil

theorem lookup_sort {pairs : List (String × α)} (hpairs : Distinct pairs) (key : String) :
    (sort pairs).lookup key = pairs.lookup key := by
  have h := lookup_foldl (fun held pair other => lookup_insert pair.1 pair.2 held other) hpairs []
    key
  rwa [List.lookup_nil, Option.or_none] at h

theorem mem_insert {key : String} {value : α} {pairs : List (String × α)} {pair : String × α}
    (h : pair ∈ insert key value pairs) : pair = (key, value) ∨ pair ∈ pairs := by
  induction pairs with
  | nil => exact .inl (List.mem_singleton.1 h)
  | cons head pairs ih =>
    obtain ⟨first, held⟩ := head
    rw [insert] at h
    split at h
    · exact List.mem_cons.1 h
    · split at h
      · exact (List.mem_cons.1 h).imp_right (List.mem_cons_of_mem _)
      · rcases List.mem_cons.1 h with rfl | h
        · exact .inr List.mem_cons_self
        · exact (ih h).imp_right (List.mem_cons_of_mem _)

/-- Sorting makes up no pairs. -/
theorem mem_of_mem_sort {pairs : List (String × α)} {pair : String × α} (h : pair ∈ sort pairs) :
    pair ∈ pairs := by
  have hfold : ∀ held : List (String × α),
      pair ∈ pairs.foldl (fun sorted next => insert next.1 next.2 sorted) held →
        pair ∈ pairs ∨ pair ∈ held := by
    clear h
    induction pairs with
    | nil => exact fun held hheld => .inr hheld
    | cons next pairs ih =>
      intro held hheld
      rcases ih _ hheld with hpair | hpair
      · exact .inl (List.mem_cons_of_mem _ hpair)
      · exact (mem_insert hpair).imp_left fun hnext => List.mem_cons.2 (.inl hnext)
  exact (hfold [] h).resolve_right List.not_mem_nil

theorem mem_keys_sort {key : String} {pairs : List (String × α)} :
    key ∈ (sort pairs).map (·.1) ↔ key ∈ pairs.map (·.1) := by
  have hfold : ∀ held : List (String × α),
      key ∈ (pairs.foldl (fun sorted pair => insert pair.1 pair.2 sorted) held).map (·.1) ↔
        key ∈ pairs.map (·.1) ∨ key ∈ held.map (·.1) := by
    induction pairs with
    | nil => simp
    | cons pair pairs ih =>
      intro held
      rw [List.foldl_cons, ih, mem_keys_insert, List.map_cons, List.mem_cons]
      tauto
  exact (hfold []).trans (or_iff_left List.not_mem_nil)

/-- Sorting loses no pairs but those with a key that occurs again. -/
theorem filter_sort_perm {p : String → Bool} {pairs : List (String × α)}
    (h : Distinct (pairs.filter (p ·.1))) :
    ((sort pairs).filter (p ·.1)).Perm (pairs.filter (p ·.1)) := by
  have hsorted : ((sort pairs).filter (p ·.1)).Nodup :=
    (List.Nodup.of_map _ (ascending_sort pairs).distinct).filter _
  refine (List.perm_ext_iff_of_nodup hsorted (List.Nodup.of_map _ h)).2 fun pair => ?_
  rw [List.mem_filter, List.mem_filter]
  refine and_congr_left fun hpair => ⟨mem_of_mem_sort, fun hmem => ?_⟩
  obtain ⟨kept, hkept, hkey⟩ := List.mem_map.1 (mem_keys_sort.2 (List.mem_map_of_mem hmem))
  have hsame : kept = pair := List.inj_on_of_nodup_map h
    (List.mem_filter.2 ⟨mem_of_mem_sort hkept, by rw [hkey]; exact hpair⟩)
    (List.mem_filter.2 ⟨hmem, hpair⟩) hkey
  exact hsame ▸ hkept

/-- In ascending order there is one list with the same pairs. -/
theorem eq_of_perm {pairs others : List (String × α)} (hpairs : Ascending pairs)
    (hothers : Ascending others) (hperm : pairs.Perm others) : pairs = others :=
  hperm.eq_of_pairwise (fun _ _ _ _ hab hba => absurd rfl (Std.ne_of_lt (Std.lt_trans hab hba)))
    (List.pairwise_map.1 hpairs) (List.pairwise_map.1 hothers)

/-- In ascending order there is one list with the same values under the same keys. -/
theorem eq_of_ascending {pairs others : List (String × α)} (hpairs : Ascending pairs)
    (hothers : Ascending others) (h : ∀ key, pairs.lookup key = others.lookup key) :
    pairs = others := by
  have hmem : ∀ pair, pair ∈ pairs ↔ pair ∈ others := fun pair => by
    rw [← lookup_eq_some_iff hpairs.distinct, ← lookup_eq_some_iff hothers.distinct, h]
  exact eq_of_perm hpairs hothers ((List.perm_ext_iff_of_nodup
    (List.Nodup.of_map _ hpairs.distinct) (List.Nodup.of_map _ hothers.distinct)).2 hmem)

theorem lookup_map (f : α → β) (pairs : List (String × α)) (key : String) :
    (pairs.map fun pair => (pair.1, f pair.2)).lookup key = (pairs.lookup key).map f := by
  induction pairs with
  | nil => rfl
  | cons pair pairs ih =>
    rw [List.map_cons, lookup_cons_ite, lookup_cons_ite, ih]
    split <;> rfl

theorem put_map (f : α → β) (key : String) (value : α) (pairs : List (String × α)) :
    put key (f value) (pairs.map fun pair => (pair.1, f pair.2))
      = (put key value pairs).map fun pair => (pair.1, f pair.2) := by
  induction pairs with
  | nil => rfl
  | cons pair pairs ih =>
    obtain ⟨first, held⟩ := pair
    rw [List.map_cons, put, put, ih]
    split <;> rfl

end Keyed

/-! ## Steps that can fail -/

theorem bind_eq_ok {ε α β : Type} {first : Except ε α} {next : α → Except ε β} {b : β}
    (h : first >>= next = .ok b) : ∃ a, first = .ok a ∧ next a = .ok b := by
  cases first with
  | error cause => cases h
  | ok a => exact ⟨a, rfl, h⟩

theorem map_eq_ok {ε α β : Type} {f : α → β} {action : Except ε α} {b : β}
    (h : action.map f = .ok b) : ∃ a, action = .ok a ∧ f a = b := by
  cases action with
  | error cause => cases h
  | ok a => exact ⟨a, rfl, Except.ok.inj h⟩

/-- What was written item by item is read item by item. -/
theorem mapM_map_eq_some {α β : Type} {write : α → β} {read : β → Option α} {items : List α}
    (h : ∀ item ∈ items, read (write item) = some item) :
    (items.map write).mapM read = some items := by
  induction items with
  | nil => rfl
  | cons item items ih =>
    rw [List.forall_mem_cons] at h
    rw [List.map_cons, List.mapM_cons, h.1, ih h.2]
    rfl

section

variable {α β : Type} {read : α → Option β} {items : List α} {images : List β}

/-- What is read from items is read from each of them. -/
theorem forall₂_of_mapM (h : items.mapM read = some images) :
    List.Forall₂ (fun item image => read item = some image) items images := by
  induction items generalizing images with
  | nil =>
    obtain rfl := Option.some.inj h
    exact .nil
  | cons item items ih =>
    rw [List.mapM_cons] at h
    obtain ⟨first, hfirst, h⟩ := Option.bind_eq_some_iff.1 h
    obtain ⟨others, hothers, h⟩ := Option.bind_eq_some_iff.1 h
    obtain rfl := Option.some.inj h
    exact .cons hfirst (ih hothers)

theorem eq_map_of_forall₂ {write : β → α}
    (h : List.Forall₂ (fun item image => item = write image) items images) :
    items = images.map write := by
  rwa [← List.forall₂_map_right_iff, List.forall₂_eq_eq_eq] at h

theorem map_eq_map_of_forall₂ {γ : Type} {key : α → γ} {key' : β → γ}
    (h : List.Forall₂ (fun item image => key item = key' image) items images) :
    items.map key = images.map key' := by
  rwa [← List.forall₂_map_right_iff, ← List.forall₂_map_left_iff, List.forall₂_eq_eq_eq] at h

theorem forall_mem_of_forall₂ {P : β → Prop}
    (h : List.Forall₂ (fun _ image => P image) items images) : ∀ image ∈ images, P image := by
  induction h with
  | nil => exact List.forall_mem_nil _
  | cons hfirst _ ih => exact List.forall_mem_cons.2 ⟨hfirst, ih⟩

end

/-! ## Lists of texts -/

namespace Data

theorem asTexts?_ofTexts (texts : List String) : (ofTexts texts).asTexts? = some texts :=
  mapM_map_eq_some fun _ _ => rfl

/-- Lists of texts are laid over lists of texts as a whole. -/
theorem mergeEntries_texts (lower upper : List (String × List String)) :
    mergeEntries (lower.map fun pair => (pair.1, ofTexts pair.2))
        (upper.map fun pair => (pair.1, ofTexts pair.2))
      = (Keyed.overlay lower upper).map fun pair => (pair.1, ofTexts pair.2) := by
  induction upper generalizing lower with
  | nil => rfl
  | cons pair upper ih =>
    rw [List.map_cons, mergeEntries]
    -- a list takes the place of whatever it is laid over
    split <;> exact (congrArg (mergeEntries · _) (Keyed.put_map ..)).trans (ih _)

end Data

theorem ImportTable.linesByName?_map (pairs : List (String × List String)) :
    ImportTable.ofData?.linesByName? (.table (pairs.map fun pair => (pair.1, .ofTexts pair.2)))
      = some (Keyed.sort pairs) := by
  have hpairs : (pairs.map fun pair => (pair.1, Data.ofTexts pair.2)).mapM
      (fun pair : String × Data => (pair.1, ·) <$> pair.2.asTexts?) = some pairs :=
    mapM_map_eq_some fun pair _ => by rw [Data.asTexts?_ofTexts]; rfl
  rw [ImportTable.ofData?.linesByName?]
  exact congrArg (Keyed.sort <$> ·) hpairs

end Carver
