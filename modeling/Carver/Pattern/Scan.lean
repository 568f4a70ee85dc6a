import Carver.Pattern

/-!
# Searching a text in one pass

A text is searched from its end to its start. At each place the scan knows, for every part of the
pattern, what became of the places ahead, so it looks at each part once and never goes back: the
time is proportional to the length of the text, however the pattern could be matched.

A *sequel* says what is made of a place where a match ends. `Pattern.answer` is what the sequel
makes of the first end, in the order of `Pattern.ends`, of which it makes anything.
-/

namespace Carver.Pattern

variable {α : Type}

/-- What a scan remembers about the places ahead, for each part of a pattern. A part that remembers
nothing about either of its halves remembers nothing at all. -/
def Memory (α : Type) : Pattern → Type
  | .nothing | .wordEdge | .lineEnd => Unit
  | .one _ | .run _ | .shortRun _ => Option α
  | .both p q => Option (Memory α p × Memory α q)
  | .maybe p | .many p => Memory α p

namespace Memory

/-- The memory at the end of a text. -/
def blank : (p : Pattern) → Memory α p
  | .nothing | .wordEdge | .lineEnd => ()
  | .one _ | .run _ | .shortRun _ => (none : Option α)
  | .both p q => (none : Option (Memory α p × Memory α q))
  | .maybe p | .many p => blank p

/-- Whether a memory is as good as blank. -/
def isBlank : (p : Pattern) → Memory α p → Bool
  | .nothing, _ | .wordEdge, _ | .lineEnd, _ => true
  | .one _, m | .run _, m | .shortRun _, m => Option.isNone (α := α) m
  | .both p q, m => Option.isNone (α := Memory α p × Memory α q) m
  | .maybe p, m | .many p, m => isBlank p m

/-- The memory of two parts. -/
def join {p q : Pattern} (m : Memory α p) (n : Memory α q) : Memory α (.both p q) :=
  if isBlank p m && isBlank q n then (none : Option (Memory α p × Memory α q)) else some (m, n)

/-- The memories of the two parts. -/
def halves {p q : Pattern} (m : Memory α (.both p q)) : Memory α p × Memory α q :=
  Option.getD (α := Memory α p × Memory α q) m (blank p, blank q)

end Memory

/-- What comes of passing the next character, if it is accepted. -/
def pass (accepts : Char → Bool) (c : Cursor) (beyond : Option α) : Option α :=
  beyond.filter fun _ => c.ahead.head?.any accepts

/-- What comes of the pattern at a place, given the memory of the places ahead and what the sequel
makes of the place itself. -/
def answer : (p : Pattern) → Cursor → Memory α p → Option α → Option α
  | .nothing, _, _, here => here
  | .one accepts, c, m, _ => pass accepts c m
  | .run accepts, c, m, here => (pass accepts c m).or here
  | .shortRun accepts, c, m, here => here.or (pass accepts c m)
  | .wordEdge, c, _, here => here.filter fun _ => c.atWordEdge
  | .lineEnd, c, _, here => here.filter fun _ => c.atLineEnd
  | .both p q, c, m, here =>
    if Memory.isBlank (.both p q) m && here.isNone then none
    else p.answer c (Memory.halves m).1 (q.answer c (Memory.halves m).2 here)
  | .maybe p, c, m, here => (p.answer c m here).or here
  | .many p, c, m, here => (p.answer c m none).or here

/-- The memory of a place and those ahead of it. -/
def remember : (p : Pattern) → Cursor → Memory α p → Option α → Memory α p
  | .nothing, _, _, _ | .wordEdge, _, _, _ | .lineEnd, _, _, _ => ()
  | .one _, _, _, here => here
  | .run accepts, c, m, here => (Pattern.run accepts).answer c m here
  | .shortRun accepts, c, m, here => (Pattern.shortRun accepts).answer c m here
  | .both p q, c, m, here =>
    if Memory.isBlank (.both p q) m && here.isNone then m
    else
      Memory.join (p.remember c (Memory.halves m).1 (q.answer c (Memory.halves m).2 here))
        (q.remember c (Memory.halves m).2 here)
  | .maybe p, c, m, here => p.remember c m here
  | .many p, c, m, here => p.remember c m ((p.answer c m none).or here)

/-- Goes on to a place in the search for the leftmost match; `held.2` is the one ahead. -/
def look (p : Pattern) (c : Cursor) (held : Memory Cursor p × Option Hit) :
    Memory Cursor p × Option Hit :=
  (p.remember c held.1 (some c), ((p.answer c held.1 (some c)).map (⟨c, ·⟩)).or held.2)

/-- The leftmost match. -/
def find? (p : Pattern) (text : Text) : Option Hit :=
  ((Cursor.onward [] text).foldr p.look (Memory.blank p, none)).2

/-- The matches from a place on: the one that starts there, which comes with those from its end on,
or else the ones ahead. -/
def hitsAt (c : Cursor) (ahead : List Hit) : Option (Cursor × List Hit) → List Hit
  | some (stop, later) => ⟨c, stop⟩ :: later
  | none => ahead

/-- Goes on to a place in the search for all matches; `held.2` are those ahead. -/
def lookAll (p : Pattern) (c : Cursor) (held : Memory (Cursor × List Hit) p × List Hit) :
    Memory (Cursor × List Hit) p × List Hit :=
  let hits := hitsAt c held.2 (p.answer c held.1 none)
  (p.remember c held.1 (some (c, hits)), hits)

/-- All matches that take some character, each the leftmost one after the end of the one before. -/
def findAll (p : Pattern) (text : Text) : List Hit :=
  ((Cursor.onward [] text).foldr p.lookAll (Memory.blank p, [])).2

end Carver.Pattern
