/-!
# Data

The common form of documents: reports, configuration files and layers of settings are all read from
it or written to it. A table keeps its entries in order. A record is a table of named fields; where
a reader allows it, a list of the fields by position stands for the table.
-/

namespace Carver

/-- A document value. -/
inductive Data where
  | null
  | bool (value : Bool)
  | number (value : Int)
  /-- A number that is not whole, by its text. -/
  | decimal (text : String)
  | text (value : String)
  | list (items : List Data)
  | table (entries : List (String × Data))
  deriving Inhabited, Repr

namespace Keyed

variable {α : Type}

/-- Puts a value under its key into a list that ascends by key, over one that is there. -/
def insert (key : String) (value : α) : List (String × α) → List (String × α)
  | [] => [(key, value)]
  | (first, held) :: rest =>
    if key < first then (key, value) :: (first, held) :: rest
    else if key = first then (key, value) :: rest
    else (first, held) :: insert key value rest

/-- The pairs ascending by key; of two with one key the later one stays. -/
def sort (pairs : List (String × α)) : List (String × α) :=
  pairs.foldl (fun sorted pair => insert pair.1 pair.2 sorted) []

/-- Replaces the value under the key, or adds the pair at the end. -/
def put (key : String) (value : α) : List (String × α) → List (String × α)
  | [] => [(key, value)]
  | (first, held) :: rest =>
    if key = first then (key, value) :: rest else (first, held) :: put key value rest

end Keyed

namespace Data

mutual

/-- Lays one value over another: tables key by key, anything else as a whole. -/
def merge (base : Data) : Data → Data
  | .table upper =>
    match base with
    | .table lower => .table (mergeEntries lower upper)
    | _ => .table upper
  | upper => upper

/-- Lays entries over entries one after the other. -/
def mergeEntries (lower : List (String × Data)) : List (String × Data) → List (String × Data)
  | [] => lower
  | (key, value) :: rest =>
    let held :=
      match lower.lookup key with
      | none => value
      | some base => merge base value
    mergeEntries (Keyed.put key held lower) rest

end

/-- The value under a path of keys. -/
def get? : Data → List String → Option Data
  | value, [] => some value
  | .table entries, key :: rest =>
    match entries.lookup key with
    | none => none
    | some inner => inner.get? rest
  | _, _ :: _ => none

/-- The value as a text. -/
def asText? : Data → Option String
  | .text value => some value
  | _ => none

/-- The value as a truth value. -/
def asBool? : Data → Option Bool
  | .bool value => some value
  | _ => none

/-- The number of counts that fit 64 bits. -/
def countBound : Nat := 18446744073709551616

/-- The value as a count that fits 64 bits. -/
def asCount? : Data → Option Nat
  | .number (.ofNat n) => if n < countBound then some n else none
  | _ => none

/-- The value as a list, each element read by `read`. -/
def asList? {α : Type} (read : Data → Option α) : Data → Option (List α)
  | .list items => items.mapM read
  | _ => none

/-- The value as a list of texts. -/
def asTexts? : Data → Option (List String) :=
  asList? asText?

/-- The value as a choice: a name, or a table with nothing but that name over null. -/
def asChoice? : Data → Option String
  | .text value => some value
  | .table [(name, .null)] => some name
  | _ => none

/-- How records may be given. -/
inductive RecordForm where
  /-- As tables alone. -/
  | tablesOnly
  /-- As tables, or as lists with no element beyond the last field. -/
  | exactLists
  /-- As tables or as lists, whose elements beyond the last field are ignored. -/
  | anyLists
  deriving DecidableEq, Repr

/-- Whether the value can stand for a record with this many fields. -/
def isRecord (form : RecordForm) (fields : Nat) : Data → Bool
  | .table _ => true
  | .list items =>
    match form with
    | .tablesOnly => false
    | .exactLists => items.length ≤ fields
    | .anyLists => true
  | _ => false

/-- A field by name or by position. -/
def field? (record : Data) (position : Nat) (name : String) : Option Data :=
  match record with
  | .table entries => entries.lookup name
  | .list items => items[position]?
  | _ => none

/-- A field that has to be there. -/
def required {α : Type} (record : Data) (position : Nat) (name : String)
    (read : Data → Option α) : Option α :=
  match record.field? position name with
  | none => none
  | some value => read value

/-- A field that has a default. -/
def defaulted {α : Type} (record : Data) (position : Nat) (name : String)
    (read : Data → Option α) (default : α) : Option α :=
  match record.field? position name with
  | none => some default
  | some value => read value

/-- A value that may be null. -/
def nullable {α : Type} (read : Data → Option α) : Data → Option (Option α)
  | .null => some none
  | value => (read value).map some

/-- A field that may be null, and may be left out of a table but not of a list. -/
def optional {α : Type} (record : Data) (position : Nat) (name : String)
    (read : Data → Option α) : Option (Option α) :=
  match record with
  | .table _ => record.defaulted position name (nullable read) none
  | _ => record.required position name (nullable read)

end Data

end Carver
