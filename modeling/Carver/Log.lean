import Carver.Text.AlphanumericTable
import Carver.Text.Blank
import Carver.Text.Pieces
import Carver.Text.Stop

/-!
# Log records

A record has a level, a target that names the part of the program it is from, a message, and the
names of the fields that stand beside the message. A filter lets records through up to a level,
which directives can change for targets that begin in a given way or for records with a given field.
The narrowest directive that a record fits decides: a longer target is narrower than a shorter one,
and of directives with one target those that ask for a field are narrower.

A directive is divided with the blanks around it left out, but its parts are taken at the same
offsets of the text with the blanks.
-/

namespace Carver.Log

open Text (Stop orFormless)

/-- How much a record matters. -/
inductive Level where
  | error
  | warn
  | info
  | debug
  | trace
  deriving DecidableEq, Repr

/-- The levels by growing detail, from one on. -/
def Level.rank : Level → Nat
  | .error => 1
  | .warn => 2
  | .info => 3
  | .debug => 4
  | .trace => 5

/-- The word for a level in a record. -/
def Level.label : Level → String
  | .error => "ERROR"
  | .warn => "WARN"
  | .info => "INFO"
  | .debug => "DEBUG"
  | .trace => "TRACE"

/-- A line of the log. -/
structure Record where
  level : Level
  target : String
  message : String
  /-- What the record tells beside its message. -/
  fields : List String
  deriving DecidableEq, Repr

/-- Whether a record has a field; the message counts as one. -/
def Record.hasField (record : Record) (name : String) : Bool :=
  name == "message" || record.fields.contains name

/-- The number that digits stand for, with a plus sign or without. -/
def number? (word : List Char) : Option Nat :=
  let digits := if word.head? = some '+' then word.tail else word
  if digits.isEmpty || !digits.all Char.isDigit then none
  else some (digits.foldl (fun n digit => 10 * n + (digit.toNat - '0'.toNat)) 0)

/-- The highest rank that a word or a number lets through; zero lets nothing through. -/
def rankOf? (word : String) : Option Nat :=
  match word.map Char.toLower with
  | "off" => some 0
  | "error" => some Level.error.rank
  | "warn" => some Level.warn.rank
  | "info" => some Level.info.rank
  | "debug" => some Level.debug.rank
  | "trace" => some Level.trace.rank
  | _ => (number? word.toList).filter (· ≤ Level.trace.rank)

/-- How far records are let through that have a target with this beginning and this field; where
one is missing, it is not asked for. -/
structure Directive where
  target : Option String
  field : Option String
  rank : Nat
  deriving DecidableEq, Repr

namespace Directive

/-- Whether a target can begin with the character. -/
def isHead (c : Char) : Bool :=
  Text.isAlphanumeric c || c == '-' || c == ':' || c == '_'

/-- Whether the character does not end a target. -/
def isInTarget (c : Char) : Bool :=
  c != '=' && c != '['

/-- Whether the character does not end the name of a scope. -/
def isInScope (c : Char) : Bool :=
  c != ']' && c != '\x7b'

/-- The rank that a level from an offset on states; without a level it is that of all records. -/
def readRank (text : Text) (start : Nat) : Except Stop Nat := do
  let word ← text.part start text.size
  if word.isEmpty then return Level.trace.rank
  else orFormless (rankOf? (String.ofList word))

/-- The rank that the end of a directive states, behind a bracket that ends at the offset. -/
def readEnd (text : Text) (start : Nat) : Text → Except Stop Nat
  | [] => .ok Level.trace.rank
  | '=' :: _ => readRank text (start + 1)
  | _ => .error .formless

/-- Reads what stands in brackets, from the offset on, and the level: a scope, a field in braces, or
both. A directive for a named scope or for a value of a field has no bearing on records, so it is
none here. -/
def readScope (text : Text) (target : Option String) (start : Nat) (rest : Text) :
    Except Stop Directive := do
  let stop := start + Text.size (rest.takeWhile isInScope)
  match rest.dropWhile isInScope with
  | ']' :: rest =>
    let _ ← text.part start stop
    let _ ← readEnd text (stop + 1) rest
    .error .formless
  | '\x7b' :: rest =>
    let scope ← text.part start stop
    let last := stop + 1 + Text.size (rest.takeWhile (· != '\x7d'))
    match rest.dropWhile (· != '\x7d') with
    | '\x7d' :: rest =>
      let field ← text.part (stop + 1) last
      match field, rest with
      | _ :: _, ']' :: rest =>
        let rank ← readEnd text (last + 2) rest
        if scope.isEmpty && !field.contains '=' then
          return ⟨target, some (String.ofList field), rank⟩
        else .error .formless
      | _, _ => .error .formless
    | _ => .error .formless
  | _ => .error .formless

/-- Reads a directive: a target, a field, or both, and then a level. A level by itself is none. -/
def read (text : Text) : Except Stop Directive := do
  let body := Text.trim text
  let stop := Text.size (body.takeWhile isInTarget)
  match body.head?, body.dropWhile isInTarget with
  | some '[', _ => readScope text none 1 body.tail
  | some c, rest =>
    if !isHead c then .error .formless
    else
      match rest with
      | [] =>
        let word := String.ofList text
        if (rankOf? word).isSome then .error .formless
        else return ⟨some word, none, Level.trace.rank⟩
      | mark :: rest =>
        let target := String.ofList (← text.part 0 stop)
        if mark = '[' then readScope text (some target) (stop + 1) rest
        else return ⟨some target, none, ← readRank text (stop + 1)⟩
  | none, _ => .error .formless

/-- The directives among the texts, other texts left out; none if a part of one cannot be taken. -/
def readAll? : List Text → Option (List Directive)
  | [] => some []
  | text :: rest =>
    match read text with
    | .ok directive => (readAll? rest).map (directive :: ·)
    | .error .formless => readAll? rest
    | .error .insideCharacter => none

/-- Whether the directive is for a record. -/
def fits (directive : Directive) (record : Record) : Bool :=
  directive.target.all (fun target => target.toList.isPrefixOf record.target.toList)
    && directive.field.all record.hasField

/-- How narrow a directive is: first by its target, then by its field. -/
def narrowness (directive : Directive) : Nat × Option String :=
  (directive.target.elim 0 String.length, directive.field)

/-- Whether a directive is narrower than another one; of two fields the one whose name comes later
counts as narrower. -/
def isNarrower (directive other : Directive) : Bool :=
  let (size, field) := directive.narrowness
  let (otherSize, otherField) := other.narrowness
  otherSize < size || otherSize = size &&
    match field, otherField with
    | some name, some otherName => decide (otherName < name)
    | some _, none => true
    | none, _ => false

end Directive

/-- A level for all records and directives for some. -/
structure Filter where
  rank : Nat
  directives : List Directive
  deriving DecidableEq, Repr

namespace Filter

/-- The filter with the configured level and the directives of the text, which commas part; none if
they cannot be read. -/
def read? (level : String) (text : String) : Option Filter :=
  (Directive.readAll? (Text.piecesBy ',' text.toList)).map fun directives =>
    ⟨(rankOf? level).getD Level.info.rank, directives⟩

/-- The directive that decides on a record: the narrowest that fits, and of equal ones the last. -/
def decisive? (filter : Filter) (record : Record) : Option Directive :=
  (filter.directives.filter (·.fits record)).foldl (fun best directive =>
    match best with
    | none => some directive
    | some held => if held.isNarrower directive then some held else some directive) none

/-- The rank up to which the filter lets a record through. -/
def rankFor (filter : Filter) (record : Record) : Nat :=
  ((filter.decisive? record).map (·.rank)).getD filter.rank

/-- Whether a record is let through. -/
def allows (filter : Filter) (record : Record) : Bool :=
  record.level.rank ≤ filter.rankFor record

end Filter

end Carver.Log
