import Carver.Pattern.Derivation
import Carver.Pattern.Scan.Lemmas
import Carver.Proofs.Bytes

/-!
# The words of a pattern

`Pattern.Spells` gives the words that a pattern can pass, without places: assertions about what
stands around count as empty words. Every derivation passes a word that is spelled
(`Derives.exists_spells`); without assertions every spelled word that lies ahead is derived
(`derives_of_spells`). With this, the leftmost match of a text is told by its words alone.
-/

namespace Carver

namespace Cursor

/-- Passing the word ahead of the first place leads to the second one. -/
def Passes (c : Cursor) (word : Text) (d : Cursor) : Prop :=
  c.ahead = word ++ d.ahead ∧ d.behind = word.reverse ++ c.behind

theorem Passes.refl (c : Cursor) : c.Passes [] c :=
  ⟨rfl, rfl⟩

theorem Passes.trans {c d e : Cursor} {u v : Text} (hu : c.Passes u d) (hv : d.Passes v e) :
    c.Passes (u ++ v) e := by
  refine ⟨?_, ?_⟩
  · rw [hu.1, hv.1, List.append_assoc]
  · rw [hv.2, hu.2, List.reverse_append, List.append_assoc]

/-- Passing two words goes through the place between them. -/
theorem Passes.through {c e : Cursor} {u v : Text} (h : c.Passes (u ++ v) e) :
    ∃ d, c.Passes u d ∧ d.Passes v e := by
  refine ⟨⟨u.reverse ++ c.behind, v ++ e.ahead⟩, ⟨?_, rfl⟩, ⟨rfl, ?_⟩⟩
  · rw [h.1, List.append_assoc]
  · rw [h.2, List.reverse_append, List.append_assoc]

theorem Passes.offset_eq {c d : Cursor} {word : Text} (h : c.Passes word d) :
    d.offset = c.offset + Text.size word := by
  rw [offset, offset, h.2, Text.size_append, Text.size_reverse, Nat.add_comm]

theorem eq_of_passes_nil {c d : Cursor} (h : c.Passes [] d) : d = c := by
  obtain ⟨behind, ahead⟩ := c
  obtain ⟨behind', ahead'⟩ := d
  obtain ⟨hahead, hbehind⟩ := h
  simp only [List.nil_append, List.reverse_nil] at hahead hbehind
  rw [hahead, hbehind]

/-- The places from a place on are those that some word leads to. -/
theorem mem_onward_iff {behind text : Text} {d : Cursor} :
    d ∈ onward behind text ↔ ∃ word, Passes ⟨behind, text⟩ word d := by
  induction text generalizing behind with
  | nil =>
    rw [onward, List.mem_singleton]
    constructor
    · rintro rfl
      exact ⟨[], .refl _⟩
    · rintro ⟨word, hahead, hbehind⟩
      have hnil := List.append_eq_nil_iff.1 hahead.symm
      rw [hnil.1] at hbehind
      exact eq_of_passes_nil ⟨by simp [hnil.2], hbehind⟩
  | cons x rest ih =>
    rw [onward, List.mem_cons, ih]
    constructor
    · rintro (rfl | ⟨word, hword⟩)
      · exact ⟨[], .refl _⟩
      · have hx : Passes ⟨behind, x :: rest⟩ [x] ⟨x :: behind, rest⟩ := ⟨rfl, rfl⟩
        exact ⟨x :: word, hx.trans hword⟩
    · rintro ⟨_ | ⟨y, word⟩, hahead, hbehind⟩
      · exact .inl (eq_of_passes_nil ⟨hahead, hbehind⟩)
      · obtain ⟨rfl, hrest⟩ := List.cons_eq_cons.1 hahead
        refine .inr ⟨word, hrest, ?_⟩
        rw [hbehind, List.reverse_cons, List.append_assoc]
        rfl

/-- A search from a place on skips what comes before the first place that answers. -/
theorem findSome?_onward_append {α : Type} {f : Cursor → Option α} (before rest : Text)
    {behind : Text}
    (hskip : ∀ u v : Text, before = u ++ v → v ≠ [] → f ⟨u.reverse ++ behind, v ++ rest⟩ = none) :
    (onward behind (before ++ rest)).findSome? f
      = (onward (before.reverse ++ behind) rest).findSome? f := by
  induction before generalizing behind with
  | nil => rfl
  | cons x before ih =>
    have hhere : f ⟨behind, x :: (before ++ rest)⟩ = none := hskip [] (x :: before) rfl (by simp)
    rw [List.cons_append, onward, List.findSome?_cons, hhere, List.reverse_cons,
      List.append_assoc, List.singleton_append]
    refine ih fun u v huv hv => ?_
    have hlater := hskip (x :: u) v (by rw [huv, List.cons_append]) hv
    rwa [List.reverse_cons, List.append_assoc, List.singleton_append] at hlater

end Cursor

namespace Pattern

/-- The words of the pattern; an assertion has only the empty word. -/
def Spells : Pattern → Text → Prop
  | .nothing, word | .wordEdge, word | .lineEnd, word => word = []
  | .one accepts, word => ∃ x, accepts x = true ∧ word = [x]
  | .run accepts, word | .shortRun accepts, word => ∀ x ∈ word, accepts x = true
  | .both p q, word => ∃ u v, word = u ++ v ∧ p.Spells u ∧ q.Spells v
  | .maybe p, word => p.Spells word ∨ word = []
  | .many p, word => ∃ words : List Text, word = words.flatten ∧ ∀ u ∈ words, p.Spells u

/-- Whether the pattern asks nothing about what stands around a word. -/
def isPlain : Pattern → Bool
  | .nothing | .one _ | .run _ | .shortRun _ => true
  | .wordEdge | .lineEnd => false
  | .both p q => p.isPlain && q.isPlain
  | .maybe p | .many p => p.isPlain

theorem isPlain_foldl_both (p : Pattern) (rest : List Pattern) :
    (rest.foldl .both p).isPlain = (p.isPlain && rest.all isPlain) := by
  induction rest generalizing p with
  | nil => simp
  | cons q rest ih => rw [List.foldl_cons, ih, isPlain, List.all_cons, Bool.and_assoc]

@[simp] theorem isPlain_all (ps : List Pattern) : (all ps).isPlain = ps.all isPlain := by
  cases ps with
  | nil => rfl
  | cons p ps => exact isPlain_foldl_both p ps

@[simp] theorem isPlain_literal (text : Text) : (literal text).isPlain = true := by
  simp [literal, char, isPlain]

/-- A derivation passes a word of the pattern. -/
theorem Derives.exists_spells {p : Pattern} {c d : Cursor} (h : Derives p c d) :
    ∃ word, p.Spells word ∧ c.Passes word d := by
  induction h with
  | nothing c => exact ⟨[], rfl, .refl c⟩
  | @one accepts behind x rest hx => exact ⟨[x], ⟨x, hx, rfl⟩, rfl, rfl⟩
  | runStop c => exact ⟨[], by simp [Spells], .refl c⟩
  | @runStep accepts behind x rest d hx _ ih =>
    obtain ⟨word, hword, hpass⟩ := ih
    have hstep : Cursor.Passes ⟨behind, x :: rest⟩ [x] ⟨x :: behind, rest⟩ := ⟨rfl, rfl⟩
    refine ⟨x :: word, ?_, hstep.trans hpass⟩
    intro y hy
    rcases List.mem_cons.1 hy with rfl | hy
    · exact hx
    · exact hword y hy
  | shortRun _ ih => exact ih
  | @wordEdge c _ => exact ⟨[], rfl, .refl c⟩
  | @lineEnd c _ => exact ⟨[], rfl, .refl c⟩
  | both _ _ ihp ihq =>
    obtain ⟨u, hu, hcd⟩ := ihp
    obtain ⟨v, hv, hde⟩ := ihq
    exact ⟨u ++ v, ⟨u, v, rfl, hu, hv⟩, hcd.trans hde⟩
  | present _ ih =>
    obtain ⟨word, hword, hpass⟩ := ih
    exact ⟨word, .inl hword, hpass⟩
  | absent c => exact ⟨[], .inr rfl, .refl c⟩
  | manyStop c => exact ⟨[], ⟨[], rfl, by simp⟩, .refl c⟩
  | manyStep _ _ ihp ihq =>
    obtain ⟨u, hu, hcd⟩ := ihp
    obtain ⟨_, ⟨words, rfl, hwords⟩, hde⟩ := ihq
    refine ⟨u ++ words.flatten, ⟨u :: words, rfl, ?_⟩, hcd.trans hde⟩
    intro w hw
    rcases List.mem_cons.1 hw with rfl | hw
    · exact hu
    · exact hwords w hw

theorem derives_run_of_passes {accepts : Char → Bool} {word : Text}
    (hword : ∀ x ∈ word, accepts x = true) {c d : Cursor} (hpass : c.Passes word d) :
    Derives (.run accepts) c d := by
  induction word generalizing c with
  | nil =>
    rw [Cursor.eq_of_passes_nil hpass]
    exact .runStop c
  | cons x word ih =>
    obtain ⟨behind, ahead⟩ := c
    obtain ⟨hahead, hbehind⟩ := hpass
    simp only [List.cons_append, List.reverse_cons, List.append_assoc] at hahead hbehind
    subst hahead
    refine .runStep (hword x (by simp)) (ih (fun y hy => hword y (by simp [hy])) ⟨rfl, ?_⟩)
    rw [hbehind]
    rfl

theorem derives_many_of_passes {p : Pattern}
    (hp : ∀ {word : Text} {c d : Cursor}, p.Spells word → c.Passes word d → Derives p c d)
    {words : List Text} (hwords : ∀ u ∈ words, p.Spells u) {c d : Cursor}
    (hpass : c.Passes words.flatten d) : Derives (.many p) c d := by
  induction words generalizing c with
  | nil =>
    rw [Cursor.eq_of_passes_nil hpass]
    exact .manyStop c
  | cons u words ih =>
    obtain ⟨e, hce, hed⟩ := Cursor.Passes.through hpass
    exact .manyStep (hp (hwords u (by simp)) hce) (ih (fun v hv => hwords v (by simp [hv])) hed)

/-- Without assertions a word of the pattern is derived wherever it lies ahead. -/
theorem derives_of_spells {p : Pattern} (hplain : p.isPlain = true) {word : Text} {c d : Cursor}
    (hword : p.Spells word) (hpass : c.Passes word d) : Derives p c d := by
  induction p generalizing word c d with
  | nothing =>
    rw [hword] at hpass
    rw [Cursor.eq_of_passes_nil hpass]
    exact .nothing c
  | one accepts =>
    obtain ⟨x, hx, rfl⟩ := hword
    obtain ⟨behind, ahead⟩ := c
    obtain ⟨behind', ahead'⟩ := d
    obtain ⟨hahead, hbehind⟩ := hpass
    simp only [List.singleton_append, List.reverse_singleton] at hahead hbehind
    subst hahead hbehind
    exact .one hx
  | run accepts => exact derives_run_of_passes hword hpass
  | shortRun accepts => exact .shortRun (derives_run_of_passes hword hpass)
  | wordEdge => simp [isPlain] at hplain
  | lineEnd => simp [isPlain] at hplain
  | both p q ihp ihq =>
    rw [isPlain, Bool.and_eq_true] at hplain
    obtain ⟨u, v, rfl, hu, hv⟩ := hword
    obtain ⟨e, hce, hed⟩ := hpass.through
    exact .both (ihp hplain.1 hu hce) (ihq hplain.2 hv hed)
  | maybe p ih =>
    rcases hword with hword | rfl
    · exact .present (ih hplain hword hpass)
    · rw [Cursor.eq_of_passes_nil hpass]
      exact .absent c
  | many p ih =>
    obtain ⟨words, rfl, hwords⟩ := hword
    exact derives_many_of_passes (fun hword hpass => ih hplain hword hpass) hwords hpass

/-- Whether a match of the pattern can take the whole text. -/
def takes (p : Pattern) (text : Text) : Bool :=
  (p.ends (Cursor.start text)).any (·.ahead.isEmpty)

/-- Without assertions the pattern takes its words and no other texts. -/
theorem takes_iff_spells {p : Pattern} (hplain : p.isPlain = true) {text : Text} :
    p.takes text = true ↔ p.Spells text := by
  simp only [takes, List.any_eq_true, mem_ends_iff_derives, List.isEmpty_iff]
  constructor
  · rintro ⟨d, hd, hahead⟩
    obtain ⟨word, hword, hpass, _⟩ := hd.exists_spells
    rw [hahead, List.append_nil] at hpass
    rwa [show text = word from hpass]
  · intro hword
    exact ⟨⟨text.reverse, []⟩, derives_of_spells hplain hword ⟨by simp [Cursor.start], by
      simp [Cursor.start]⟩, rfl⟩

/-! ## Patterns one after the other -/

theorem derives_foldl_both {p : Pattern} {rest : List Pattern} {c d : Cursor} :
    Derives (rest.foldl .both p) c d ↔ ∃ e, Derives p c e ∧ Derives (all rest) e d := by
  induction rest generalizing p c with
  | nil =>
    constructor
    · exact fun h => ⟨d, h, .nothing d⟩
    · rintro ⟨e, hp, hnothing⟩
      cases hnothing
      exact hp
  | cons q rest ih =>
    simp only [List.foldl_cons, all, ih]
    constructor
    · rintro ⟨e, hpq, hrest⟩
      cases hpq with
      | both hp hq => exact ⟨_, hp, _, hq, hrest⟩
    · rintro ⟨e, hp, e', hq, hrest⟩
      exact ⟨e', .both hp hq, hrest⟩

theorem derives_all_cons {p : Pattern} {rest : List Pattern} {c d : Cursor} :
    Derives (all (p :: rest)) c d ↔ ∃ e, Derives p c e ∧ Derives (all rest) e d :=
  derives_foldl_both

theorem derives_all_append {ps qs : List Pattern} {c d : Cursor} :
    Derives (all (ps ++ qs)) c d ↔ ∃ e, Derives (all ps) c e ∧ Derives (all qs) e d := by
  induction ps generalizing c with
  | nil =>
    constructor
    · exact fun h => ⟨c, .nothing c, h⟩
    · rintro ⟨e, hnothing, h⟩
      cases hnothing
      exact h
  | cons p ps ih =>
    rw [List.cons_append, derives_all_cons]
    simp only [ih, derives_all_cons]
    constructor
    · rintro ⟨e, hp, e', hps, hqs⟩
      exact ⟨e', ⟨e, hp, hps⟩, hqs⟩
    · rintro ⟨e', ⟨e, hp, hps⟩, hqs⟩
      exact ⟨e, hp, e', hps, hqs⟩

@[simp] theorem spells_all_nil {word : Text} : (all []).Spells word ↔ word = [] :=
  Iff.rfl

theorem spells_foldl_both {p : Pattern} {rest : List Pattern} {word : Text} :
    (rest.foldl .both p).Spells word
      ↔ ∃ u v, word = u ++ v ∧ p.Spells u ∧ (all rest).Spells v := by
  induction rest generalizing p word with
  | nil => simp [all, Spells]
  | cons q rest ih =>
    simp only [List.foldl_cons, ih, all, Spells]
    constructor
    · rintro ⟨_, v, rfl, ⟨u, w, rfl, hp, hq⟩, hrest⟩
      exact ⟨u, w ++ v, List.append_assoc u w v, hp, w, v, rfl, hq, hrest⟩
    · rintro ⟨u, _, rfl, hp, w, v, rfl, hq, hrest⟩
      exact ⟨u ++ w, v, (List.append_assoc u w v).symm, ⟨u, w, rfl, hp, hq⟩, hrest⟩

@[simp] theorem spells_all_cons {p : Pattern} {rest : List Pattern} {word : Text} :
    (all (p :: rest)).Spells word ↔ ∃ u v, word = u ++ v ∧ p.Spells u ∧ (all rest).Spells v :=
  spells_foldl_both

theorem spells_cons {p : Pattern} {rest : List Pattern} {u v : Text} (hp : p.Spells u)
    (hrest : (all rest).Spells v) : (all (p :: rest)).Spells (u ++ v) :=
  spells_all_cons.2 ⟨u, v, rfl, hp, hrest⟩

theorem spells_all_append {ps qs : List Pattern} {word : Text} :
    (all (ps ++ qs)).Spells word
      ↔ ∃ u v, word = u ++ v ∧ (all ps).Spells u ∧ (all qs).Spells v := by
  induction ps generalizing word with
  | nil =>
    constructor
    · exact fun h => ⟨[], word, rfl, rfl, h⟩
    · rintro ⟨_, v, rfl, rfl, hqs⟩
      exact hqs
  | cons p ps ih =>
    simp only [List.cons_append, spells_all_cons, ih]
    constructor
    · rintro ⟨u, _, rfl, hp, v, w, rfl, hps, hqs⟩
      exact ⟨u ++ v, w, (List.append_assoc u v w).symm, ⟨u, v, rfl, hp, hps⟩, hqs⟩
    · rintro ⟨_, w, rfl, ⟨u, v, rfl, hp, hps⟩, hqs⟩
      exact ⟨u, v ++ w, List.append_assoc u v w, hp, v, w, rfl, hps, hqs⟩

@[simp] theorem spells_char {x : Char} {word : Text} : (char x).Spells word ↔ word = [x] := by
  simp [char, Spells]

@[simp] theorem spells_literal {word text : Text} : (literal text).Spells word ↔ word = text := by
  induction text generalizing word with
  | nil => exact Iff.rfl
  | cons x text ih =>
    rw [literal, List.map_cons, spells_all_cons]
    simp only [spells_char]
    constructor
    · rintro ⟨_, v, rfl, rfl, hv⟩
      rw [ih.1 hv]
      rfl
    · rintro rfl
      exact ⟨[x], text, rfl, rfl, ih.2 rfl⟩

@[simp] theorem spells_run1 {accepts : Char → Bool} {word : Text} :
    (run1 accepts).Spells word ↔ word ≠ [] ∧ ∀ x ∈ word, accepts x = true := by
  rw [run1]
  simp only [Spells]
  constructor
  · rintro ⟨_, v, rfl, ⟨x, hx, rfl⟩, hv⟩
    refine ⟨by simp, ?_⟩
    intro y hy
    rcases List.mem_cons.1 hy with rfl | hy
    · exact hx
    · exact hv y hy
  · rintro ⟨hne, hword⟩
    obtain ⟨x, rest, rfl⟩ := List.exists_cons_of_ne_nil hne
    exact ⟨[x], rest, rfl, ⟨x, hword x (by simp), rfl⟩, fun y hy => hword y (by simp [hy])⟩

/-! ## The leftmost match -/

/-- A match that is found starts in the text and is derived. -/
theorem derives_of_find? {p : Pattern} {text : Text} {hit : Hit} (h : p.find? text = some hit) :
    hit.start ∈ Cursor.onward [] text ∧ Derives p hit.start hit.stop := by
  rw [find?_eq_findSome?] at h
  obtain ⟨c, hc, hhit⟩ := List.exists_of_findSome?_eq_some h
  obtain ⟨d, hd, rfl⟩ := Option.map_eq_some_iff.1 hhit
  exact ⟨hc, derives_of_mem_ends (List.mem_of_mem_head? hd)⟩

theorem head?_ends_eq_none_iff {p : Pattern} {c : Cursor} :
    (p.ends c).head? = none ↔ ∀ d, ¬ Derives p c d := by
  rw [List.head?_eq_none_iff, List.eq_nil_iff_forall_not_mem]
  simp only [mem_ends_iff_derives]

/-- Nothing is found exactly if nothing is derived at any place of the text. -/
theorem find?_eq_none_iff {p : Pattern} {text : Text} :
    p.find? text = none ↔ ∀ c ∈ Cursor.onward [] text, ∀ d, ¬ Derives p c d := by
  rw [find?_eq_findSome?, List.findSome?_eq_none_iff]
  simp only [Option.map_eq_none_iff, head?_ends_eq_none_iff]

/-- The match that is found starts at the first place at which one is derived. -/
theorem exists_find?_of_leftmost {p : Pattern} {before rest : Text} {d : Cursor}
    (hmatch : Derives p ⟨before.reverse, rest⟩ d)
    (hfirst : ∀ u v : Text, before = u ++ v → v ≠ [] → ∀ d, ¬ Derives p ⟨u.reverse, v ++ rest⟩ d) :
    ∃ stop, p.find? (before ++ rest) = some ⟨⟨before.reverse, rest⟩, stop⟩ := by
  have hskip : ∀ u v : Text, before = u ++ v → v ≠ [] →
      ((p.ends ⟨u.reverse ++ [], v ++ rest⟩).head?.map
        (Hit.mk ⟨u.reverse ++ [], v ++ rest⟩ ·)) = none := by
    intro u v huv hv
    rw [List.append_nil, Option.map_eq_none_iff, head?_ends_eq_none_iff]
    exact hfirst u v huv hv
  obtain ⟨stop, hstop⟩ : ∃ stop, (p.ends ⟨before.reverse, rest⟩).head? = some stop := by
    rw [← Option.ne_none_iff_exists']
    intro hnone
    exact head?_ends_eq_none_iff.1 hnone d hmatch
  refine ⟨stop, ?_⟩
  rw [find?_eq_findSome?, Cursor.findSome?_onward_append before rest hskip, List.append_nil]
  cases rest with
  | nil => rw [Cursor.onward, List.findSome?_cons, hstop, Option.map_some]
  | cons x rest => rw [Cursor.onward, List.findSome?_cons, hstop, Option.map_some]

end Pattern

end Carver
