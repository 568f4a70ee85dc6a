import Carver.Config
import Carver.Data
import Carver.Text.Blank
import Carver.Text.Pieces
import Carver.Text.Stop
import Carver.Toml.Scalar
import Carver.Toml.Strings

/-!
# Settings from the environment

A variable whose name begins with the mark, in any case, sets the value under the keys that follow,
in lower case, divided by two underscores or a dot. Its value is read as a truth value, a number, a
text in quotes, a character in apostrophes, a list in brackets or a table in braces whose plain
texts need no quotes; what cannot be read to its end is a text as it stands. A text in quotes that
has escapes can lose the end of what stands before the first of them, and a cut that would fall
inside a character ends all reading.
-/

namespace Carver.Environment

open Text (Stop orFormless)

/-- ASCII white space. -/
def isSpace (c : Char) : Bool :=
  c == ' ' || c == '\t' || c == '\n' || c == '\r' || c == '\x0c'

/-- A character that ends a plain text. -/
def isDivider (c : Char) : Bool :=
  c == ',' || c == '[' || c == ']' || c == '\x7b' || c == '\x7d'

/-- Whether digits are there and all there is. -/
def isDigits (text : Text) : Bool :=
  !text.isEmpty && text.all Char.isDigit

/-- The text behind a sign, if there is one. -/
def unsigned : Text → Text
  | '-' :: rest => rest
  | '+' :: rest => rest
  | text => text

/-- Whether the text is a number with a point and perhaps an exponent. -/
def isDecimal (text : Text) : Bool :=
  let rest := unsigned text
  let whole := rest.takeWhile Char.isDigit
  match rest.dropWhile Char.isDigit with
  | '.' :: behind =>
    let fraction := behind.takeWhile Char.isDigit
    !(whole.isEmpty && fraction.isEmpty) &&
      match behind.dropWhile Char.isDigit with
      | [] => true
      | c :: exponent => (c == 'e' || c == 'E') && isDigits (unsigned exponent)
  | _ => false

/-- The whole number that the text writes, if it fits 64 bits with or without a sign. -/
def whole? (text : Text) : Option Int :=
  if !isDigits (unsigned text) then none
  else
    let size := (unsigned text).foldl (fun n c => 10 * n + (c.toNat - '0'.toNat)) 0
    if text.head? = some '-' then
      if size ≤ Toml.signedBound then some (-(size : Int)) else none
    else if size < Data.countBound then some size
    else none

/-- A plain text, which is a number if it looks like one. -/
def plain (text : Text) : Data :=
  if isDecimal text then .decimal (String.ofList text)
  else
    match whole? text with
    | some n => .number n
    | none => .text (String.ofList text)

/-- What follows the word, if it is first. -/
def after? (word : String) (text : Text) : Option Text :=
  if word.toList.isPrefixOf text then some (text.drop word.toList.length) else none

/-- A character of a key that needs no quotes. -/
def isKeyChar (c : Char) : Bool :=
  c.isAlphanum || c == '_' || c == '-'

/-- Whether a quotation mark without a backslash in front closes the text. -/
def isClosed : Text → Bool
  | [] => false
  | '"' :: _ => true
  | '\\' :: _ :: rest => isClosed rest
  | _ :: rest => isClosed rest

/-- A text in quotes, from behind the opening mark. Of the characters before the first escape as
many bytes are kept as there are characters. -/
def readQuoted (text : Text) : Except Stop (Text × Text) :=
  let isPlain (c : Char) : Bool := c != '"' && c != '\\'
  let before := text.takeWhile isPlain
  match text.dropWhile isPlain with
  | '\\' :: escape =>
    if !isClosed text || !Toml.QuoteForm.holds before .basic then .error .formless
    else if Text.IsBoundary before before.length then
      orFormless (Toml.readBasic (Text.takeBytes before.length before ++ '\\' :: escape))
    else .error .insideCharacter
  | _ => orFormless (Toml.readBasic text)

/-- A key and what follows the blanks behind it. -/
def readKey (text : Text) : Except Stop (Text × Text) := do
  let start := text.dropWhile isSpace
  let (key, rest) ←
    match start with
    | '"' :: rest => readQuoted rest
    | _ =>
      let key := start.takeWhile isKeyChar
      if key.isEmpty then .error .formless else .ok (key, start.dropWhile isKeyChar)
  return (key, rest.dropWhile isSpace)

mutual

/-- A value and what follows the blanks behind it; `limit` bounds the steps. -/
def readValue (limit : Nat) (text : Text) : Except Stop (Data × Text) :=
  match limit with
  | 0 => .error .formless
  | limit + 1 => do
    let (held, rest) ← readBare limit (text.dropWhile isSpace)
    return (held, rest.dropWhile isSpace)

/-- A value without blanks around it. -/
def readBare (limit : Nat) (text : Text) : Except Stop (Data × Text) :=
  match limit with
  | 0 => .error .formless
  | limit + 1 =>
    match after? "true" text, after? "false" text with
    | some rest, _ => .ok (.bool true, rest)
    | none, some rest => .ok (.bool false, rest)
    | none, none =>
      match text with
      | '[' :: rest => (readItems limit rest).map fun (items, last) => (.list items, last)
      | '\x7b' :: rest => (readPairs limit [] rest).map fun (pairs, last) => (.table pairs, last)
      | '"' :: rest =>
        (readQuoted rest).map fun (held, last) => (.text (String.ofList held), last)
      | '\'' :: c :: '\'' :: rest => .ok (.text c.toString, rest)
      | '\'' :: _ => .error .formless
      | _ =>
        let word := text.takeWhile (!isDivider ·)
        .ok (plain (Text.trim word), text.dropWhile (!isDivider ·))

/-- The elements of a list up to its closing bracket. -/
def readItems (limit : Nat) (text : Text) : Except Stop (List Data × Text) :=
  match limit with
  | 0 => .error .formless
  | limit + 1 =>
    match text with
    | ']' :: rest => .ok ([], rest)
    | _ => do
      let (item, rest) ← readValue limit text
      match rest with
      | ',' :: more =>
        let (items, last) ← readItems limit more
        return (item :: items, last)
      | ']' :: last => return ([item], last)
      | _ => .error .formless

/-- The entries of a table up to its closing brace. -/
def readPairs (limit : Nat) (pairs : List (String × Data)) (text : Text) :
    Except Stop (List (String × Data) × Text) :=
  match limit with
  | 0 => .error .formless
  | limit + 1 =>
    match text with
    | '\x7d' :: rest => .ok (pairs, rest)
    | _ => do
      let (key, rest) ← readKey text
      match rest with
      | '=' :: rest =>
        let (held, rest) ← readValue limit rest
        let pairs := Keyed.put (String.ofList key) held pairs
        match rest with
        | ',' :: more => readPairs limit pairs more
        | '\x7d' :: last => return (pairs, last)
        | _ => .error .formless
      | _ => .error .formless

end

/-- The value of a variable; none if its reading ends inside a character. -/
def value? (text : String) : Option Data :=
  let chars := text.toList
  match readValue (3 * chars.length + 3) chars with
  | .ok (held, []) => some held
  | .error .insideCharacter => none
  | _ => some (.text text)

/-- A dot for every two underscores. -/
def dotted : Text → Text
  | [] => []
  | '_' :: '_' :: rest => '.' :: dotted rest
  | c :: rest => c :: dotted rest

/-- The keys that a variable's name stands for; none if it has not the mark or an empty key. -/
def keys? (name : String) : Option (List String) := do
  let lower := (Text.trim name.toList).map Char.toLower
  let rest ← after? (Defaults.environmentMark.map Char.toLower) lower
  let keys := Text.piecesBy '.' (dotted (Text.trim rest))
  if keys.any List.isEmpty then none else some (keys.map String.ofList)

/-- A value under a path of keys. -/
def nest (held : Data) : List String → Data
  | [] => held
  | key :: rest => .table [(key, nest held rest)]

/-- The settings of all variables; where names differ in case alone, the last name in the order of
characters counts. None if the value of one cannot be read. -/
def layer? (environment : List (String × String)) : Option Data :=
  (Keyed.sort environment).foldlM (fun settings (name, text) =>
    match keys? name with
    | none => some settings
    | some keys => (value? text).map fun held => settings.merge (nest held keys)) (.table [])

end Carver.Environment
