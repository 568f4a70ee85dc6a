import Carver.Toml.Scalar
import Carver.Toml.Strings

/-!
# Reading TOML

A document is a list of lines: entries, headers of tables and headers of elements of lists of
tables. A table is opened by a header once; tables that come about on the way to another one may
still be opened, those made by dotted keys may not, and a value is never extended.
-/

namespace Carver.Toml

/-- How a table came about. -/
inductive Origin where
  /-- By a header of its own. -/
  | header
  /-- On the way to another header. -/
  | implied
  /-- By a dotted key. -/
  | dotted
  deriving DecidableEq, Repr

/-- What stands under a key while a document is read. -/
inductive Node where
  | value (held : Data)
  | table (origin : Origin) (entries : List (String × Node))
  | tables (elements : List (List (String × Node)))

/-- The entries of a table while a document is read. -/
abbrev Entries := List (String × Node)

mutual

/-- The value that has been read. -/
def Node.toData : Node → Data
  | .value held => held
  | .table _ entries => .table (entriesToData entries)
  | .tables elements => .list (elementsToData elements)

/-- The entries that have been read. -/
def entriesToData : Entries → List (String × Data)
  | [] => []
  | (key, node) :: rest => (key, node.toData) :: entriesToData rest

/-- The elements that have been read. -/
def elementsToData : List Entries → List Data
  | [] => []
  | entries :: rest => .table (entriesToData entries) :: elementsToData rest

end

/-- Changes the last element of a list. -/
def changeLast (change : Entries → Option Entries) : List Entries → Option (List Entries)
  | [] => none
  | [last] => (change last).map ([·])
  | first :: rest => (changeLast change rest).map (first :: ·)

/-- Changes the table under a path of keys, which is made where it is missing; a list of tables
stands for its last element. -/
def changeAt (change : Entries → Option Entries) : List String → Entries → Option Entries
  | [], entries => change entries
  | key :: path, entries =>
    match entries.lookup key with
    | none => (changeAt change path []).map fun made => Keyed.put key (.table .implied made) entries
    | some (.value _) => none
    | some (.tables elements) =>
      (changeLast (changeAt change path) elements).map fun changed =>
        Keyed.put key (.tables changed) entries
    | some (.table origin inner) =>
      (changeAt change path inner).map fun changed =>
        Keyed.put key (.table origin changed) entries

/-- Opens the table under a key by its header. -/
def openTable (key : String) (entries : Entries) : Option Entries :=
  match entries.lookup key with
  | none => some (Keyed.put key (.table .header []) entries)
  | some (.table .implied inner) => some (Keyed.put key (.table .header inner) entries)
  | some _ => none

/-- Opens one more element of the list of tables under a key. -/
def openElement (key : String) (entries : Entries) : Option Entries :=
  match entries.lookup key with
  | none => some (Keyed.put key (.tables [[]]) entries)
  | some (.tables elements) => some (Keyed.put key (.tables (elements ++ [[]])) entries)
  | some _ => none

/-- Sets the value under a dotted key, which has to be free; `mayHold` tells whether the table at
hand takes entries. -/
def assign (key : String) (held : Data) (mayHold : Bool) : List String → Entries → Option Entries
  | [], entries =>
    if mayHold && (entries.lookup key).isNone then some (Keyed.put key (.value held) entries)
    else none
  | step :: path, entries =>
    match entries.lookup step with
    | none =>
      (assign key held true path []).map fun made =>
        Keyed.put step (.table .dotted made) entries
    | some (.value _) => none
    | some (.tables elements) =>
      (changeLast (assign key held false path) elements).map fun changed =>
        Keyed.put step (.tables changed) entries
    | some (.table .header _) => none
    | some (.table origin inner) =>
      (assign key held (origin == .dotted) path inner).map fun changed =>
        Keyed.put step (.table origin changed) entries

/-- Drops spaces and tabs. -/
def skipIndent (text : Text) : Text :=
  text.dropWhile fun c => c == ' ' || c == '\t'

/-- What follows a comment without its line break. -/
def skipComment : Text → Option Text
  | [] => some []
  | '\n' :: rest => some ('\n' :: rest)
  | '\r' :: '\n' :: rest => some ('\r' :: '\n' :: rest)
  | c :: rest => if isControl c then none else skipComment rest

/-- What follows the end of a line: blanks, a comment and a line break or the end of the text. -/
def endLine (text : Text) : Option Text := do
  let rest ←
    match skipIndent text with
    | '#' :: comment => skipComment comment
    | rest => some rest
  match rest with
  | [] => some []
  | _ => afterBreak? rest

/-- Drops blanks, comments and line breaks between the elements of a list, at most `limit` of
them. -/
def skipLines : Nat → Text → Option Text
  | 0, text => some text
  | limit + 1, text =>
    match skipIndent text with
    | '#' :: comment => do skipLines limit (← skipComment comment)
    | rest =>
      match afterBreak? rest with
      | none => some rest
      | some more => skipLines limit more

/-- How deep lists and tables may be nested in a value, and how many keys a dotted key may have. -/
def maxDepth : Nat := 79

/-- The keys of a dotted key, at most `limit` of them, and what follows the blanks behind it. -/
def readKeys : Nat → Text → Option (List String × Text)
  | 0, _ => none
  | limit + 1, text => do
    let (key, rest) ← readKey (skipIndent text)
    match skipIndent rest with
    | '.' :: more =>
      let (keys, last) ← readKeys limit more
      return (String.ofList key :: keys, last)
    | rest => return ([String.ofList key], rest)

/-- A dotted key as the way to a table and the key in it. -/
def splitKeys (keys : List String) : Option (List String × String) :=
  keys.getLast?.map (keys.dropLast, ·)

mutual

/-- A value and what follows it; `limit` bounds the steps and `depth` the nesting. -/
def readValue (limit depth : Nat) (text : Text) : Option (Data × Text) :=
  match limit with
  | 0 => none
  | limit + 1 =>
    match text with
    | '[' :: rest =>
      if depth = 0 then none
      else (readItems limit (depth - 1) rest).map fun (items, last) => (.list items, last)
    | '\x7b' :: rest =>
      if depth = 0 then none
      else
        match skipIndent rest with
        | '\x7d' :: last => some (.table [], last)
        | rest =>
          (readPairs limit (depth - 1) [] rest).map fun (entries, last) =>
            (.table (entriesToData entries), last)
    | c :: rest =>
      if c = '"' || c = '\'' then
        (readQuoted (c :: rest)).map fun (held, last) => (.text (String.ofList held), last)
      else readScalar (c :: rest)
    | [] => none

/-- The elements of a list up to its closing bracket. -/
def readItems (limit depth : Nat) (text : Text) : Option (List Data × Text) :=
  match limit with
  | 0 => none
  | limit + 1 => do
    match ← skipLines text.length text with
    | ']' :: rest => return ([], rest)
    | start =>
      let (item, rest) ← readValue limit depth start
      match ← skipLines rest.length rest with
      | ',' :: more =>
        let (items, last) ← readItems limit depth more
        return (item :: items, last)
      | ']' :: last => return ([item], last)
      | _ => none

/-- The entries of a table in braces up to the closing one. -/
def readPairs (limit depth : Nat) (entries : Entries) (text : Text) : Option (Entries × Text) :=
  match limit with
  | 0 => none
  | limit + 1 => do
    let (keys, rest) ← readKeys maxDepth text
    let (path, key) ← splitKeys keys
    match rest with
    | '=' :: rest =>
      let (held, rest) ← readValue limit depth (skipIndent rest)
      let entries ← assign key held true path entries
      match skipIndent rest with
      | ',' :: more => readPairs limit depth entries more
      | '\x7d' :: last => return (entries, last)
      | _ => none
    | _ => none

end

/-- The keys of a header up to the closing brackets, which end the line. -/
def readHeader (close : Text) (text : Text) : Option (List String × Text) := do
  let (keys, rest) ← readKeys maxDepth text
  guard (close.isPrefixOf rest)
  let rest ← endLine (rest.drop close.length)
  return (keys, rest)

/-- Reads the lines of a document, at most `limit` of them, into the table under `path`. -/
def readLines (limit : Nat) (path : List String) (entries : Entries) (text : Text) :
    Option Entries :=
  match limit with
  | 0 => if text.isEmpty then some entries else none
  | limit + 1 => do
    match skipIndent text with
    | [] => return entries
    | '[' :: '[' :: rest =>
      let (keys, rest) ← readHeader [']', ']'] rest
      let (above, key) ← splitKeys keys
      readLines limit keys (← changeAt (openElement key) above entries) rest
    | '[' :: rest =>
      let (keys, rest) ← readHeader [']'] rest
      let (above, key) ← splitKeys keys
      readLines limit keys (← changeAt (openTable key) above entries) rest
    | start =>
      if start.head? = some '#' || (afterBreak? start).isSome then
        readLines limit path entries (← endLine start)
      else
        let (keys, rest) ← readKeys maxDepth start
        let (way, key) ← splitKeys keys
        match rest with
        | '=' :: rest =>
          let (held, rest) ← readValue rest.length maxDepth (skipIndent rest)
          let rest ← endLine rest
          readLines limit path (← changeAt (assign key held true way) path entries) rest
        | _ => none

/-- Reads a document; a byte order mark in front of it is passed over. -/
def read? (text : Text) : Option Data :=
  let body :=
    match text with
    | '\uFEFF' :: rest => rest
    | _ => text
  (readLines (body.length + 1) [] [] body).map fun entries => .table (entriesToData entries)

end Carver.Toml
