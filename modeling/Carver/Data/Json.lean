import Carver.Data

/-!
# JSON text

Values as JSON, one element or entry a line, indented by two blanks for each level.
-/

namespace Carver.Json

/-- The digits of a number below 16. -/
def hexDigit (n : Nat) : Char :=
  Nat.digitChar n

/-- A character inside a quoted text. -/
def escape (c : Char) : List Char :=
  match c with
  | '"' => ['\\', '"']
  | '\\' => ['\\', '\\']
  | '\n' => ['\\', 'n']
  | '\r' => ['\\', 'r']
  | '\t' => ['\\', 't']
  | '\x08' => ['\\', 'b']
  | '\x0c' => ['\\', 'f']
  | c =>
    if c.toNat < 0x20 then
      ['\\', 'u', '0', '0', hexDigit (c.toNat / 16), hexDigit (c.toNat % 16)]
    else [c]

/-- A quoted text. -/
def quote (text : String) : String :=
  String.ofList (['"'] ++ text.toList.flatMap escape ++ ['"'])

/-- A new line at this level. -/
def newline (level : Nat) : String :=
  String.ofList ('\n' :: List.replicate (2 * level) ' ')

mutual

/-- A value whose first line is already indented. -/
def render (level : Nat) : Data → String
  | .null => "null"
  | .bool true => "true"
  | .bool false => "false"
  | .number value => toString value
  | .decimal text => text
  | .text value => quote value
  | .list [] => "[]"
  | .list (item :: items) =>
    "[" ++ newline (level + 1) ++ render (level + 1) item ++ renderItems (level + 1) items
      ++ newline level ++ "]"
  | .table [] => "\x7b\x7d"
  | .table ((key, value) :: entries) =>
    "\x7b" ++ newline (level + 1) ++ quote key ++ ": " ++ render (level + 1) value
      ++ renderEntries (level + 1) entries ++ newline level ++ "\x7d"

/-- Further elements of a list. -/
def renderItems (level : Nat) : List Data → String
  | [] => ""
  | item :: items => "," ++ newline level ++ render level item ++ renderItems level items

/-- Further entries of a table. -/
def renderEntries (level : Nat) : List (String × Data) → String
  | [] => ""
  | (key, value) :: entries =>
    "," ++ newline level ++ quote key ++ ": " ++ render level value ++ renderEntries level entries

end

/-- A value as JSON text without a final line feed. -/
def pretty (value : Data) : String :=
  render 0 value

end Carver.Json
