import Carver.Plan
import Carver.Text.Blank
import Carver.Text.Bytes

/-!
# Generated module files

A module file is a header line, the import lines as an ascending set, and the moved texts, each
followed by a blank line.
-/

namespace Carver.Module

/-- The first line of a module file. -/
def header (name : String) : String :=
  s!"// {name}.rs - Module for {name}"

/-- The line that declares the module in the source. -/
def declaration (name : String) : String :=
  s!"mod {name};"

/-- The line that brings the module's names into the source. -/
def globImport (name : String) : String :=
  s!"use {name}::*;"

/-- Adds a line to a strictly ascending list that lacks or has it. -/
def insertLine (line : String) : List String → List String
  | [] => [line]
  | first :: rest =>
    if line < first then line :: first :: rest
    else if line = first then first :: rest
    else first :: insertLine line rest

/-- The line without white space at its ends. -/
def trimLine (line : String) : String :=
  String.ofList (Text.trim line.toList)

/-- Import lines of the module: the common ones, those kept for its name and the extra ones, without
white space at their ends, without empty ones, ascending and each once. -/
def importLines (name : String) (table : ImportTable) (extra : List String) : List String :=
  (((table.common ++ table.linesFor name ++ extra).map trimLine).filter (· != "")).foldr
    insertLine []

/-- The text of a module file. -/
def content (name : String) (items : List Text) (table : ImportTable) (extra : List String) :
    Text :=
  (header name).toList ++ ['\n', '\n']
    ++ (importLines name table extra).flatMap (fun line => line.toList ++ ['\n'])
    ++ ['\n'] ++ items.flatMap (· ++ ['\n', '\n'])

end Carver.Module
