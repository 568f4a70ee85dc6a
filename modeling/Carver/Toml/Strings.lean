import Carver.Toml.Quote

/-!
# Reading quoted texts

Each reader gets what follows the opening mark and gives the text and what follows the closing one.
-/

namespace Carver.Toml

/-- The value of a digit in base 16. -/
def hexValue? (c : Char) : Option Nat :=
  if c.isDigit then some (c.toNat - '0'.toNat)
  else if 'a' ≤ c ∧ c ≤ 'f' then some (c.toNat - 'a'.toNat + 10)
  else if 'A' ≤ c ∧ c ≤ 'F' then some (c.toNat - 'A'.toNat + 10)
  else none

/-- The number that digits in base 16 write. -/
def hexNumber? (digits : List Char) : Option Nat :=
  digits.foldl (fun n c => do return 16 * (← n) + (← hexValue? c)) (some 0)

/-- The character with this code point, if there is one. -/
def charOf? (n : Nat) : Option Char :=
  if n.isValidChar then some (Char.ofNat n) else none

/-- The character that digits in base 16 name. -/
def hexChar? (digits : List Char) : Option Char :=
  (hexNumber? digits).bind charOf?

/-- The character that a one-letter escape names. -/
def namedChar? : Char → Option Char
  | 'b' => some '\x08'
  | 't' => some '\t'
  | 'n' => some '\n'
  | 'f' => some '\x0c'
  | 'r' => some '\r'
  | '"' => some '"'
  | '\\' => some '\\'
  | _ => none

/-- Puts a character in front of what has been read. -/
def consRead (c : Char) (read : Option (Text × Text)) : Option (Text × Text) :=
  read.map fun (text, rest) => (c :: text, rest)

/-- A text on one line with escapes. -/
def readBasic : Text → Option (Text × Text)
  | [] => none
  | '"' :: rest => some ([], rest)
  | '\\' :: 'u' :: a :: b :: c :: d :: rest => do
    consRead (← hexChar? [a, b, c, d]) (readBasic rest)
  | '\\' :: 'U' :: a :: b :: c :: d :: e :: f :: g :: h :: rest => do
    consRead (← hexChar? [a, b, c, d, e, f, g, h]) (readBasic rest)
  | '\\' :: c :: rest => do consRead (← namedChar? c) (readBasic rest)
  | c :: rest =>
    if isControl c || c = '\n' || c = '\\' then none else consRead c (readBasic rest)

/-- A text on one line without escapes. -/
def readLiteral : Text → Option (Text × Text)
  | [] => none
  | '\'' :: rest => some ([], rest)
  | c :: rest => if isControl c || c = '\n' then none else consRead c (readLiteral rest)

/-- What follows a line break, if one is first. -/
def afterBreak? : Text → Option Text
  | '\n' :: rest => some rest
  | '\r' :: '\n' :: rest => some rest
  | _ => none

/-- Drops a line break right behind the opening mark. -/
def dropBreak (text : Text) : Text :=
  (afterBreak? text).getD text

/-- The end of a text on several lines, if three marks are first: up to two more marks belong to the
text. -/
def closing? (mark : Char) (text : Text) : Option (Text × Text) :=
  let marks := (text.takeWhile (· == mark)).length
  if marks < 3 then none
  else
    let inner := min (marks - 3) 2
    some (List.replicate inner mark, text.drop (inner + 3))

/-- Whether nothing but spaces and tabs stands before the next line break. -/
def isBlankLine (text : Text) : Bool :=
  (afterBreak? (text.dropWhile fun c => c == ' ' || c == '\t')).isSome

/-- A text on several lines with escapes; while `skipping`, blanks and line breaks are dropped. -/
def readMultilineBasic (skipping : Bool) : Text → Option (Text × Text)
  | [] => none
  | '\r' :: '\n' :: rest =>
    if skipping then readMultilineBasic true rest
    else consRead '\n' (readMultilineBasic false rest)
  | '\\' :: 'u' :: a :: b :: c :: d :: rest => do
    consRead (← hexChar? [a, b, c, d]) (readMultilineBasic false rest)
  | '\\' :: 'U' :: a :: b :: c :: d :: e :: f :: g :: h :: rest => do
    consRead (← hexChar? [a, b, c, d, e, f, g, h]) (readMultilineBasic false rest)
  | '\\' :: c :: rest =>
    if isBlankLine (c :: rest) then readMultilineBasic true (c :: rest)
    else do consRead (← namedChar? c) (readMultilineBasic false rest)
  | c :: rest =>
    if skipping && (c = ' ' || c = '\t' || c = '\n') then readMultilineBasic true rest
    else
      match closing? '"' (c :: rest) with
      | some done => some done
      | none =>
        if isControl c || c = '\\' then none else consRead c (readMultilineBasic false rest)

/-- A text on several lines without escapes. -/
def readMultilineLiteral : Text → Option (Text × Text)
  | [] => none
  | '\r' :: '\n' :: rest => consRead '\n' (readMultilineLiteral rest)
  | c :: rest =>
    match closing? '\'' (c :: rest) with
    | some done => some done
    | none => if isControl c then none else consRead c (readMultilineLiteral rest)

/-- A quoted text of any form, if one is first. -/
def readQuoted : Text → Option (Text × Text)
  | '"' :: '"' :: '"' :: rest => readMultilineBasic false (dropBreak rest)
  | '\'' :: '\'' :: '\'' :: rest => readMultilineLiteral (dropBreak rest)
  | '"' :: rest => readBasic rest
  | '\'' :: rest => readLiteral rest
  | _ => none

/-- A key: bare, or quoted on one line. -/
def readKey : Text → Option (Text × Text)
  | '"' :: rest => readBasic rest
  | '\'' :: rest => readLiteral rest
  | text =>
    let bare := text.takeWhile isBare
    if bare.isEmpty then none else some (bare, text.dropWhile isBare)

end Carver.Toml
