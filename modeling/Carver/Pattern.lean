import Carver.Text.Bytes
import Carver.Text.Word

/-!
# Patterns over texts

A pattern describes runs of characters together with what may stand around them. `Pattern.ends`
lists every way to match at a cursor, preferred ways first, so the first entry is what a search
that tries alternatives in order and takes them back on failure arrives at.
-/

namespace Carver

/-- A place in a text: what lies behind it, nearest character first, and what lies ahead. -/
structure Cursor where
  behind : Text
  ahead : Text
  deriving DecidableEq, Repr

namespace Cursor

/-- The start of a text. -/
def start (text : Text) : Cursor :=
  ⟨[], text⟩

/-- Byte offset of the place. -/
def offset (c : Cursor) : Nat :=
  Text.size c.behind

/-- Exactly one of the neighbouring characters is a word character. -/
def atWordEdge (c : Cursor) : Bool :=
  Text.isWordAt c.behind.head? != Text.isWordAt c.ahead.head?

/-- A line feed or the end of the text is ahead. -/
def atLineEnd (c : Cursor) : Bool :=
  c.ahead.head?.all (· == '\n')

/-- Goes back over the characters that `drops` accepts. -/
def retreat (drops : Char → Bool) (c : Cursor) : Cursor :=
  ⟨c.behind.dropWhile drops, (c.behind.takeWhile drops).reverse ++ c.ahead⟩

/-- The place and all places after it. -/
def onward (behind : Text) : Text → List Cursor
  | [] => [⟨behind, []⟩]
  | c :: rest => ⟨behind, c :: rest⟩ :: onward (c :: behind) rest

/-- The places reached by passing zero, one, two, … accepted characters. -/
def runs (accepts : Char → Bool) (behind : Text) : Text → List Cursor
  | [] => [⟨behind, []⟩]
  | c :: rest =>
    ⟨behind, c :: rest⟩ :: if accepts c then runs accepts (c :: behind) rest else []

end Cursor

/-- A description of a run of characters. -/
inductive Pattern where
  /-- No character. -/
  | nothing
  /-- One accepted character. -/
  | one (accepts : Char → Bool)
  /-- Any number of accepted characters, as many as possible. -/
  | run (accepts : Char → Bool)
  /-- Any number of accepted characters, as few as possible. -/
  | shortRun (accepts : Char → Bool)
  /-- No character, between a word character and something else. -/
  | wordEdge
  /-- No character, at the end of a line. -/
  | lineEnd
  /-- One pattern and then another. -/
  | both (first second : Pattern)
  /-- The pattern if possible, else no character. -/
  | maybe (inner : Pattern)
  /-- The pattern any number of times, as often as possible, each time with some character. -/
  | many (inner : Pattern)

namespace Pattern

/-- The patterns one after the other. -/
def all : List Pattern → Pattern
  | [] => .nothing
  | p :: rest => rest.foldl .both p

/-- This character. -/
def char (c : Char) : Pattern :=
  .one (· == c)

/-- These characters. -/
def literal (word : Text) : Pattern :=
  all (word.map char)

/-- At least one accepted character, as many as possible. -/
def run1 (accepts : Char → Bool) : Pattern :=
  .both (.one accepts) (.run accepts)

/-- The places reached by steps that lead ahead, any number of them, more steps first. -/
def repeated (step : Cursor → List Cursor) (c : Cursor) : List Cursor :=
  (step c).flatMap (fun d => if d.ahead.length < c.ahead.length then repeated step d else []) ++ [c]
termination_by c.ahead.length

/-- Every place where a match that starts at the cursor can end, preferred ones first. -/
def ends : Pattern → Cursor → List Cursor
  | .nothing, c => [c]
  | .one accepts, c =>
    match c.ahead with
    | [] => []
    | x :: rest => if accepts x then [⟨x :: c.behind, rest⟩] else []
  | .run accepts, c => (Cursor.runs accepts c.behind c.ahead).reverse
  | .shortRun accepts, c => Cursor.runs accepts c.behind c.ahead
  | .wordEdge, c => if c.atWordEdge then [c] else []
  | .lineEnd, c => if c.atLineEnd then [c] else []
  | .both p q, c => (p.ends c).flatMap q.ends
  | .maybe p, c => p.ends c ++ [c]
  | .many p, c => repeated p.ends c

/-- A match: where it starts and where it ends. -/
structure Hit where
  start : Cursor
  stop : Cursor
  deriving DecidableEq, Repr

/-- The bytes that the match covers. -/
def Hit.span (hit : Hit) : Span :=
  ⟨hit.start.offset, hit.stop.offset⟩

end Pattern

end Carver
