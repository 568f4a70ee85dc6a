import Carver.Data
import Carver.Toml.Quote

/-!
# Writing TOML

The plain entries of a table come first, then its tables, each under a header of its own; sections
are set apart by a blank line. A list of two or more elements has one element a line.
-/

namespace Carver.Toml

/-- Whether a value is written under a header: a table, or a list of tables that is not empty. -/
def isSection : Data → Bool
  | .table _ => true
  | .list items =>
    !items.isEmpty && items.all fun
      | .table _ => true
      | _ => false
  | _ => false

/-- A value behind a key. -/
def value : Data → Text
  | .bool true => "true".toList
  | .bool false => "false".toList
  | .number n => (toString n).toList
  | .decimal text => text.toList
  | .text text => quote text.toList
  | .list items => list (values items)
  | .null | .table _ => []
where
  /-- The elements of a list. -/
  values : List Data → List Text
    | [] => []
    | item :: items => value item :: values items
  /-- The list of the elements. -/
  list : List Text → Text
    | [] => ['[', ']']
    | [item] => ['['] ++ item ++ [']']
    | items =>
      ['[', '\n'] ++ items.flatMap (fun item => "    ".toList ++ item ++ [',', '\n']) ++ [']']

/-- The lines of the plain entries. -/
def plainLines (entries : List (String × Data)) : Text :=
  (entries.filter (!isSection ·.2)).flatMap fun (key, held) =>
    quoteKey key.toList ++ " = ".toList ++ value held ++ ['\n']

/-- The keys of a header. -/
def dotted (keys : List String) : Text :=
  ['.'].intercalate (keys.map fun key => quoteKey key.toList)

/-- The sections of a table's entries, each with its header. -/
def sections (path : List String) : List (String × Data) → List Text
  | [] => []
  | (key, .table entries) :: rest =>
    let here := path ++ [key]
    (['['] ++ dotted here ++ [']', '\n'] ++ plainLines entries)
      :: sections here entries ++ sections path rest
  | (key, .list items) :: rest =>
    (if isSection (.list items) then elements (path ++ [key]) items else [])
      ++ sections path rest
  | _ :: rest => sections path rest
where
  /-- The sections of a list of tables. -/
  elements (here : List String) : List Data → List Text
    | [] => []
    | .table entries :: rest =>
      (['[', '['] ++ dotted here ++ [']', ']', '\n'] ++ plainLines entries)
        :: sections here entries ++ elements here rest
    | _ :: rest => elements here rest

/-- A document from the entries of its outermost table. -/
def document (entries : List (String × Data)) : Text :=
  let top := plainLines entries
  let parts := (if top.isEmpty then [] else [top]) ++ sections [] entries
  ['\n'].intercalate parts

end Carver.Toml
