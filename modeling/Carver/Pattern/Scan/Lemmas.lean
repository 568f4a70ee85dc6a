import Carver.Pattern.Scan

/-!
# One pass finds what the list of ends tells

`Pattern.first` is the answer along the ends of a match, read off the whole list. The memory that a
scan has at a place is `Pattern.trail`, and with it a scan gives the same answer as the list
(`answer_prior`, `remember_prior`). So the search from the end of a text is the search for the
leftmost place with an end (`find?_eq_findSome?`), and the search for all matches goes on at the end
of each match (`findAll_eq_hitsFrom`).
-/

namespace Carver.Pattern

variable {α : Type}

/-- What the sequel makes of the first end of which it makes anything. -/
def first (p : Pattern) (sequel : Cursor → Option α) (c : Cursor) : Option α :=
  (p.ends c).findSome? sequel

/-! ## Ends lie ahead -/

theorem length_le_of_mem_runs {accepts : Char → Bool} {behind text : Text} {d : Cursor}
    (h : d ∈ Cursor.runs accepts behind text) : d.ahead.length ≤ text.length := by
  induction text generalizing behind with
  | nil => simp_all [Cursor.runs]
  | cons x rest ih =>
    simp only [Cursor.runs, List.mem_cons] at h
    rcases h with rfl | h
    · simp
    · split at h
      · have := ih h
        simp only [List.length_cons]
        omega
      · simp at h

theorem length_le_of_mem_repeated {step : Cursor → List Cursor} (c : Cursor) {d : Cursor}
    (h : d ∈ repeated step c) : d.ahead.length ≤ c.ahead.length := by
  rw [repeated] at h
  simp only [List.mem_append, List.mem_flatMap, List.mem_singleton] at h
  rcases h with ⟨e, _, h⟩ | rfl
  · split at h
    · have := length_le_of_mem_repeated e h
      omega
    · simp at h
  · exact Nat.le_refl _
termination_by c.ahead.length

/-- A match never ends before it starts. -/
theorem length_le_of_mem_ends {p : Pattern} {c d : Cursor} (h : d ∈ p.ends c) :
    d.ahead.length ≤ c.ahead.length := by
  induction p generalizing c d with
  | nothing => simp_all [ends]
  | one accepts =>
    simp only [ends] at h
    split at h
    · simp at h
    · split at h <;> simp_all
  | run accepts =>
    rw [ends, List.mem_reverse] at h
    exact length_le_of_mem_runs h
  | shortRun accepts => exact length_le_of_mem_runs h
  | wordEdge =>
    rw [ends] at h
    split at h <;> simp_all
  | lineEnd =>
    rw [ends] at h
    split at h <;> simp_all
  | both p q ihp ihq =>
    rw [ends, List.mem_flatMap] at h
    obtain ⟨e, he, hd⟩ := h
    exact Nat.le_trans (ihq hd) (ihp he)
  | maybe p ih =>
    rw [ends, List.mem_append, List.mem_singleton] at h
    rcases h with h | rfl
    · exact ih h
    · exact Nat.le_refl _
  | many p _ => exact length_le_of_mem_repeated c h

/-! ## The first answer, part by part -/

theorem findSome?_one {β : Type} (x : β) (f : β → Option α) : [x].findSome? f = f x := by
  rw [List.findSome?_cons]
  cases f x <;> rfl

theorem findSome?_congr_mem {β : Type} {l : List β} {f g : β → Option α}
    (h : ∀ x ∈ l, f x = g x) : l.findSome? f = l.findSome? g := by
  induction l with
  | nil => rfl
  | cons x rest ih =>
    rw [List.findSome?_cons, List.findSome?_cons, h x (by simp),
      ih fun y hy => h y (by simp [hy])]

theorem findSome?_flatMap_eq {β γ : Type} (l : List β) (f : β → List γ) (g : γ → Option α) :
    (l.flatMap f).findSome? g = l.findSome? fun x => (f x).findSome? g := by
  induction l with
  | nil => rfl
  | cons x rest ih =>
    rw [List.flatMap_cons, List.findSome?_append, ih, List.findSome?_cons]
    cases (f x).findSome? g <;> rfl

/-- The answer depends on the sequel at places that are not behind. -/
theorem first_congr {p : Pattern} {k l : Cursor → Option α} {c : Cursor}
    (h : ∀ d : Cursor, d.ahead.length ≤ c.ahead.length → k d = l d) :
    p.first k c = p.first l c :=
  findSome?_congr_mem fun d hd => h d (length_le_of_mem_ends hd)

theorem first_both (p q : Pattern) (sequel : Cursor → Option α) (c : Cursor) :
    (Pattern.both p q).first sequel c = p.first (q.first sequel) c :=
  findSome?_flatMap_eq _ _ _

theorem first_maybe (p : Pattern) (sequel : Cursor → Option α) (c : Cursor) :
    (Pattern.maybe p).first sequel c = (p.first sequel c).or (sequel c) := by
  simp only [first, ends, List.findSome?_append, findSome?_one]

/-- The sequel at places ahead of `c`, and nothing elsewhere. -/
def beyond (c : Cursor) (sequel : Cursor → Option α) (d : Cursor) : Option α :=
  if d.ahead.length < c.ahead.length then sequel d else none

theorem beyond_self (c : Cursor) (sequel : Cursor → Option α) : beyond c sequel c = none := by
  simp [beyond]

theorem first_many (p : Pattern) (sequel : Cursor → Option α) (c : Cursor) :
    (Pattern.many p).first sequel c
      = (p.first (beyond c ((Pattern.many p).first sequel)) c).or (sequel c) := by
  unfold first
  rw [ends, repeated, List.findSome?_append, findSome?_flatMap_eq, findSome?_one]
  refine congrArg (Option.or · _) (findSome?_congr_mem fun d _ => ?_)
  unfold beyond
  split <;> rfl

theorem first_one_cons (accepts : Char → Bool) (sequel : Cursor → Option α) (behind : Text)
    (x : Char) (rest : Text) :
    (Pattern.one accepts).first sequel ⟨behind, x :: rest⟩
      = if accepts x then sequel ⟨x :: behind, rest⟩ else none := by
  simp only [first, ends]
  split
  · exact findSome?_one _ _
  · rfl

theorem first_run_nil (accepts : Char → Bool) (sequel : Cursor → Option α) (behind : Text) :
    (Pattern.run accepts).first sequel ⟨behind, []⟩ = sequel ⟨behind, []⟩ := by
  exact findSome?_one _ _

theorem first_run_cons (accepts : Char → Bool) (sequel : Cursor → Option α) (behind : Text)
    (x : Char) (rest : Text) :
    (Pattern.run accepts).first sequel ⟨behind, x :: rest⟩
      = ((if accepts x then (Pattern.run accepts).first sequel ⟨x :: behind, rest⟩ else none).or
        (sequel ⟨behind, x :: rest⟩)) := by
  simp only [first, ends, Cursor.runs, List.reverse_cons, List.findSome?_append, findSome?_one]
  split <;> rfl

theorem first_shortRun_nil (accepts : Char → Bool) (sequel : Cursor → Option α) (behind : Text) :
    (Pattern.shortRun accepts).first sequel ⟨behind, []⟩ = sequel ⟨behind, []⟩ := by
  exact findSome?_one _ _

theorem first_shortRun_cons (accepts : Char → Bool) (sequel : Cursor → Option α) (behind : Text)
    (x : Char) (rest : Text) :
    (Pattern.shortRun accepts).first sequel ⟨behind, x :: rest⟩
      = (sequel ⟨behind, x :: rest⟩).or
        (if accepts x then (Pattern.shortRun accepts).first sequel ⟨x :: behind, rest⟩
          else none) := by
  simp only [first, ends, Cursor.runs]
  rw [← List.singleton_append, List.findSome?_append, findSome?_one]
  split <;> rfl

/-! ## What a blank memory answers -/

namespace Memory

theorem isBlank_blank (p : Pattern) : isBlank p (blank p : Memory α p) = true := by
  induction p with
  | maybe p ih => exact ih
  | many p ih => exact ih
  | _ => rfl

theorem eq_blank_of_isBlank {p : Pattern} {m : Memory α p} (h : isBlank p m = true) :
    m = blank p := by
  induction p with
  | nothing => rfl
  | wordEdge => rfl
  | lineEnd => rfl
  | maybe p ih => exact ih h
  | many p ih => exact ih h
  | one accepts => exact Option.isNone_iff_eq_none.1 h
  | run accepts => exact Option.isNone_iff_eq_none.1 h
  | shortRun accepts => exact Option.isNone_iff_eq_none.1 h
  | both p q _ _ => exact Option.isNone_iff_eq_none.1 h

theorem join_blank (p q : Pattern) :
    join (blank p : Memory α p) (blank q) = blank (.both p q) := by
  simp only [join, isBlank_blank, Bool.and_self]
  rfl

theorem halves_join {p q : Pattern} (m : Memory α p) (n : Memory α q) :
    halves (join m n) = (m, n) := by
  by_cases h : (isBlank p m && isBlank q n) = true
  · rw [Bool.and_eq_true] at h
    rw [eq_blank_of_isBlank h.1, eq_blank_of_isBlank h.2, join_blank]
    rfl
  · have hj : join m n = (some (m, n) : Option (Memory α p × Memory α q)) := if_neg h
    exact congrArg halves hj

end Memory

/-- Where nothing is known and nothing follows there is no answer. -/
theorem answer_blank_none (p : Pattern) (c : Cursor) :
    p.answer c (Memory.blank p : Memory α p) none = none := by
  induction p with
  | maybe p ih => simp only [answer, Memory.blank, ih, Option.or_none]
  | many p ih => simp only [answer, Memory.blank, ih, Option.or_none]
  | both p q _ _ => rfl
  | _ => rfl

/-- Where nothing is known and nothing follows there is nothing to remember. -/
theorem remember_blank_none (p : Pattern) (c : Cursor) :
    p.remember c (Memory.blank p : Memory α p) none = Memory.blank p := by
  induction p with
  | maybe p ih => exact ih
  | many p ih =>
    have h : ((p.answer c (Memory.blank p : Memory α p) none).or none) = none := by
      rw [answer_blank_none, Option.or_none]
    exact (congrArg (p.remember c (Memory.blank p)) h).trans ih
  | both p q _ _ => rfl
  | _ => rfl

theorem answer_both_join (p q : Pattern) (c : Cursor) (m : Memory α p) (n : Memory α q)
    (here : Option α) :
    (Pattern.both p q).answer c (Memory.join m n) here = p.answer c m (q.answer c n here) := by
  rw [answer, Memory.halves_join]
  split
  · rename_i h
    rw [Bool.and_eq_true, Option.isNone_iff_eq_none] at h
    have hb := Memory.eq_blank_of_isBlank h.1
    have hp : (m, n) = (Memory.blank p, Memory.blank q) := by
      rw [← Memory.halves_join m n, hb]
      rfl
    rw [(Prod.mk.inj hp).1, (Prod.mk.inj hp).2, h.2, answer_blank_none, answer_blank_none]
  · rfl

theorem remember_both_join (p q : Pattern) (c : Cursor) (m : Memory α p) (n : Memory α q)
    (here : Option α) :
    (Pattern.both p q).remember c (Memory.join m n) here
      = Memory.join (p.remember c m (q.answer c n here)) (q.remember c n here) := by
  rw [remember, Memory.halves_join]
  split
  · rename_i h
    rw [Bool.and_eq_true, Option.isNone_iff_eq_none] at h
    have hb := Memory.eq_blank_of_isBlank h.1
    have hp : (m, n) = (Memory.blank p, Memory.blank q) := by
      rw [← Memory.halves_join m n, hb]
      rfl
    rw [(Prod.mk.inj hp).1, (Prod.mk.inj hp).2, h.2, answer_blank_none, remember_blank_none,
      remember_blank_none, Memory.join_blank]
  · rfl

/-! ## The memory of a scan -/

/-- What a scan remembers of a place and those ahead of it. -/
def trail : (p : Pattern) → (Cursor → Option α) → Cursor → Memory α p
  | .nothing, _, _ | .wordEdge, _, _ | .lineEnd, _, _ => ()
  | .one _, sequel, c => sequel c
  | .run accepts, sequel, c => (Pattern.run accepts).first sequel c
  | .shortRun accepts, sequel, c => (Pattern.shortRun accepts).first sequel c
  | .both p q, sequel, c => Memory.join (p.trail (q.first sequel) c) (q.trail sequel c)
  | .maybe p, sequel, c => p.trail sequel c
  | .many p, sequel, c => p.trail ((Pattern.many p).first sequel) c

/-- What a scan remembers when it comes to a place. -/
def prior (p : Pattern) (sequel : Cursor → Option α) (c : Cursor) : Memory α p :=
  match c.ahead with
  | [] => Memory.blank p
  | x :: rest => p.trail sequel ⟨x :: c.behind, rest⟩

theorem trail_congr {p : Pattern} {k l : Cursor → Option α} {c : Cursor}
    (h : ∀ d : Cursor, d.ahead.length ≤ c.ahead.length → k d = l d) :
    p.trail k c = p.trail l c := by
  induction p generalizing k l with
  | nothing => rfl
  | wordEdge => rfl
  | lineEnd => rfl
  | one accepts => exact h c (Nat.le_refl _)
  | run accepts => exact first_congr h
  | shortRun accepts => exact first_congr h
  | both p q ihp ihq =>
    rw [trail, trail, ihq h,
      ihp fun d hd => first_congr fun e he => h e (Nat.le_trans he hd)]
  | maybe p ih => exact ih h
  | many p ih => exact ih fun d hd => first_congr fun e he => h e (Nat.le_trans he hd)

theorem prior_beyond (p : Pattern) (sequel : Cursor → Option α) (c : Cursor) :
    p.prior (beyond c sequel) c = p.prior sequel c := by
  obtain ⟨behind, _ | ⟨x, rest⟩⟩ := c
  · rfl
  · refine trail_congr fun d hd => ?_
    simp only [beyond, List.length_cons]
    rw [if_pos (by simp only at hd; omega)]

theorem prior_both (p q : Pattern) (sequel : Cursor → Option α) (c : Cursor) :
    (Pattern.both p q).prior sequel c
      = Memory.join (p.prior (q.first sequel) c) (q.prior sequel c) := by
  obtain ⟨behind, _ | ⟨x, rest⟩⟩ := c
  · exact (Memory.join_blank p q).symm
  · rfl

theorem prior_maybe (p : Pattern) (sequel : Cursor → Option α) (c : Cursor) :
    (Pattern.maybe p).prior sequel c = p.prior sequel c := by
  obtain ⟨behind, _ | ⟨x, rest⟩⟩ := c <;> rfl

theorem prior_many (p : Pattern) (sequel : Cursor → Option α) (c : Cursor) :
    (Pattern.many p).prior sequel c = p.prior ((Pattern.many p).first sequel) c := by
  obtain ⟨behind, _ | ⟨x, rest⟩⟩ := c <;> rfl

theorem pass_nil (accepts : Char → Bool) (behind : Text) (value : Option α) :
    pass accepts ⟨behind, []⟩ value = none := by
  cases value <;> rfl

theorem pass_cons (accepts : Char → Bool) (behind : Text) (x : Char) (rest : Text)
    (value : Option α) :
    pass accepts ⟨behind, x :: rest⟩ value = if accepts x then value else none := by
  cases value <;> cases h : accepts x <;> simp [pass, h]

/-- With what it remembers, a scan gives the first answer along the ends. -/
theorem answer_prior (p : Pattern) (sequel : Cursor → Option α) (c : Cursor) :
    p.answer c (p.prior sequel c) (sequel c) = p.first sequel c := by
  induction p generalizing sequel c with
  | nothing => exact (findSome?_one c sequel).symm
  | one accepts =>
    obtain ⟨behind, _ | ⟨x, rest⟩⟩ := c
    · rfl
    · rw [first_one_cons, ← pass_cons accepts behind x rest]
      rfl
  | run accepts =>
    obtain ⟨behind, _ | ⟨x, rest⟩⟩ := c
    · rw [first_run_nil]
      rfl
    · rw [first_run_cons, ← pass_cons accepts behind x rest]
      rfl
  | shortRun accepts =>
    obtain ⟨behind, _ | ⟨x, rest⟩⟩ := c
    · rw [first_shortRun_nil]
      exact Option.or_none
    · rw [first_shortRun_cons, ← pass_cons accepts behind x rest]
      rfl
  | wordEdge =>
    by_cases h : c.atWordEdge = true <;> cases hs : sequel c <;>
      simp [answer, first, ends, h, hs]
  | lineEnd =>
    by_cases h : c.atLineEnd = true <;> cases hs : sequel c <;>
      simp [answer, first, ends, h, hs]
  | both p q ihp ihq => rw [prior_both, answer_both_join, ihq, ihp, first_both]
  | maybe p ih =>
    rw [prior_maybe, first_maybe, ← ih]
    rfl
  | many p ih =>
    rw [prior_many, first_many, ← ih, prior_beyond, beyond_self]
    rfl

/-- What a scan remembers behind a place follows from what it remembers at it. -/
theorem remember_prior (p : Pattern) (sequel : Cursor → Option α) (c : Cursor) :
    p.remember c (p.prior sequel c) (sequel c) = p.trail sequel c := by
  induction p generalizing sequel c with
  | nothing => rfl
  | wordEdge => rfl
  | lineEnd => rfl
  | one accepts => rfl
  | run accepts => exact answer_prior (.run accepts) sequel c
  | shortRun accepts => exact answer_prior (.shortRun accepts) sequel c
  | both p q ihp ihq => rw [prior_both, remember_both_join, answer_prior, ihp, ihq, trail]
  | maybe p ih =>
    rw [prior_maybe]
    exact ih sequel c
  | many p ih =>
    have h := answer_prior (.many p) sequel c
    rw [prior_many] at h ⊢
    exact (congrArg (p.remember c _) h).trans (ih _ c)

/-! ## Searches -/

theorem first_some (p : Pattern) (c : Cursor) : p.first some c = (p.ends c).head? := by
  unfold first
  cases p.ends c <;> rfl

theorem look_prior (p : Pattern) (c : Cursor) (hit : Option Hit) :
    p.look c (p.prior some c, hit)
      = (p.trail some c, ((p.ends c).head?.map (⟨c, ·⟩)).or hit) := by
  rw [look, remember_prior p some c, answer_prior p some c, first_some]

/-- The leftmost match is the preferred one at the leftmost place where one starts. -/
theorem find?_eq_findSome? (p : Pattern) (text : Text) :
    p.find? text
      = (Cursor.onward [] text).findSome? fun c => (p.ends c).head?.map (⟨c, ·⟩) := by
  suffices h : ∀ behind, (Cursor.onward behind text).foldr p.look (Memory.blank p, none)
      = (p.trail some ⟨behind, text⟩,
        (Cursor.onward behind text).findSome? fun c => (p.ends c).head?.map (⟨c, ·⟩)) from
    congrArg Prod.snd (h [])
  induction text with
  | nil =>
    intro behind
    simp only [Cursor.onward, List.foldr_cons, List.foldr_nil, findSome?_one]
    exact (look_prior p ⟨behind, []⟩ none).trans (by rw [Option.or_none])
  | cons x rest ih =>
    intro behind
    rw [Cursor.onward, List.foldr_cons, ih, List.findSome?_cons]
    refine (look_prior p ⟨behind, x :: rest⟩ _).trans ?_
    cases (p.ends ⟨behind, x :: rest⟩).head? <;> rfl

/-- The matches from a place on that take some character: the preferred one if the place has one,
and then those from its end on; else those from the next place on. -/
def hitsFrom (p : Pattern) (c : Cursor) : List Hit :=
  match h : (p.ends c).find? fun d => d.ahead.length < c.ahead.length with
  | some d =>
    have : d.ahead.length < c.ahead.length := by simpa using List.find?_some h
    ⟨c, d⟩ :: hitsFrom p d
  | none =>
    match c with
    | ⟨_, []⟩ => []
    | ⟨behind, x :: rest⟩ => hitsFrom p ⟨x :: behind, rest⟩
termination_by c.ahead.length

/-- What is found from a place on, as an answer at the place. -/
def found (p : Pattern) (c : Cursor) : Option (Cursor × List Hit) :=
  some (c, p.hitsFrom c)

theorem first_beyond_found (p : Pattern) (c : Cursor) :
    p.first (beyond c p.found) c
      = ((p.ends c).find? fun d => d.ahead.length < c.ahead.length).bind p.found := by
  unfold first
  induction p.ends c with
  | nil => rfl
  | cons d rest ih =>
    rw [List.findSome?_cons, ih, List.find?_cons]
    by_cases h : d.ahead.length < c.ahead.length <;> simp [beyond, found, h]

/-- The matches from the next place on. -/
def hitsAfter (p : Pattern) (c : Cursor) : List Hit :=
  match c.ahead with
  | [] => []
  | x :: rest => p.hitsFrom ⟨x :: c.behind, rest⟩

theorem hitsFrom_eq (p : Pattern) (c : Cursor) :
    p.hitsFrom c =
      match (p.ends c).find? fun d => d.ahead.length < c.ahead.length with
      | some d => ⟨c, d⟩ :: p.hitsFrom d
      | none => p.hitsAfter c := by
  rw [hitsFrom]
  split
  · rename_i d h
    simp only [h]
  · rename_i h
    simp only [h]
    obtain ⟨behind, _ | ⟨x, rest⟩⟩ := c <;> rfl

theorem lookAll_prior (p : Pattern) (c : Cursor) :
    p.lookAll c (p.prior p.found c, p.hitsAfter c) = (p.trail p.found c, p.hitsFrom c) := by
  have hits : hitsAt c (p.hitsAfter c) (p.answer c (p.prior p.found c) none) = p.hitsFrom c := by
    rw [← prior_beyond, ← beyond_self c p.found, answer_prior, first_beyond_found, hitsFrom_eq]
    cases (p.ends c).find? fun d => d.ahead.length < c.ahead.length <;> rfl
  rw [lookAll, hits]
  exact congrArg (·, p.hitsFrom c) (remember_prior p p.found c)

/-- All matches of a text are those from its start on. -/
theorem findAll_eq_hitsFrom (p : Pattern) (text : Text) :
    p.findAll text = p.hitsFrom (Cursor.start text) := by
  suffices h : ∀ behind, (Cursor.onward behind text).foldr p.lookAll (Memory.blank p, [])
      = (p.trail p.found ⟨behind, text⟩, p.hitsFrom ⟨behind, text⟩) from
    congrArg Prod.snd (h [])
  induction text with
  | nil => exact fun behind => lookAll_prior p ⟨behind, []⟩
  | cons x rest ih =>
    intro behind
    rw [Cursor.onward, List.foldr_cons, ih]
    exact lookAll_prior p ⟨behind, x :: rest⟩

end Carver.Pattern
