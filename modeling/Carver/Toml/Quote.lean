import Carver.Text.Bytes

/-!
# Quoted texts in TOML

A text is written in the plainest of the quoted forms that can hold it: on one line with escapes or
verbatim, on several lines with escapes or verbatim.
-/

namespace Carver.Toml

/-- A control character other than a tab or a line feed. -/
def isControl (c : Char) : Bool :=
  (c.toNat < 0x20 && c != '\t' && c != '\n') || c.toNat == 0x7F

/-- Length of the longest run of the character. -/
def longestRun (mark : Char) : Text → Nat :=
  go 0 0
where
  /-- The longest run, given the longest so far and the one that is open. -/
  go (longest current : Nat) : Text → Nat
    | [] => max longest current
    | c :: rest =>
      if c = mark then go longest (current + 1) rest else go (max longest current) 0 rest

/-- The ways to quote a text. -/
inductive QuoteForm where
  | basic
  | literal
  | multilineBasic
  | multilineLiteral
  deriving DecidableEq, Repr

namespace QuoteForm

/-- Whether the form can hold the text without escapes. -/
def holds (text : Text) : QuoteForm → Bool
  | .basic => text.all fun c => !isControl c && c != '\n' && c != '\\' && c != '"'
  | .literal => text.all fun c => !isControl c && c != '\n' && c != '\''
  | .multilineBasic =>
    (text.all fun c => !isControl c && c != '\\') && longestRun '"' text ≤ 2
  | .multilineLiteral => (text.all fun c => !isControl c) && longestRun '\'' text ≤ 2

/-- The first form that holds the text, else one with escapes. -/
def choose (text : Text) : QuoteForm :=
  match [.basic, .literal, .multilineBasic, .multilineLiteral].find? (holds text) with
  | some form => form
  | none => if text.contains '\n' then .multilineBasic else .basic

/-- The first form on one line that holds the text, else the one with escapes. -/
def chooseOneLine (text : Text) : QuoteForm :=
  ([.basic, .literal].find? (holds text)).getD .basic

/-- The marks around the text. -/
def marks : QuoteForm → Text
  | .basic => ['"']
  | .literal => ['\'']
  | .multilineBasic => ['"', '"', '"']
  | .multilineLiteral => ['\'', '\'', '\'']

end QuoteForm

/-- A digit in base 16, in upper case. -/
def upperHex (n : Nat) : Char :=
  (Nat.digitChar n).toUpper

/-- A character that has to be escaped wherever escapes are read. -/
def escape? (c : Char) : Option Text :=
  match c with
  | '\x08' => some ['\\', 'b']
  | '\t' => some ['\\', 't']
  | '\x0c' => some ['\\', 'f']
  | '\r' => some ['\\', 'r']
  | '\\' => some ['\\', '\\']
  | c =>
    if isControl c then
      some ['\\', 'u', '0', '0', upperHex (c.toNat / 16), upperHex (c.toNat % 16)]
    else none

/-- The text with escapes, on one line. -/
def escapeLine (text : Text) : Text :=
  text.flatMap fun c =>
    if c = '\n' then ['\\', 'n'] else if c = '"' then ['\\', '"'] else (escape? c).getD [c]

/-- The text with escapes, on several lines; every third quotation mark of a run is escaped, and
`quotes` tells how many have been written since. -/
def escapeLines (quotes : Nat) : Text → Text
  | [] => []
  | c :: rest =>
    if c = '"' then
      if quotes = 2 then ['\\', '"'] ++ escapeLines 0 rest else '"' :: escapeLines (quotes + 1) rest
    else (escape? c).getD [c] ++ escapeLines 0 rest

/-- What stands between the marks. -/
def QuoteForm.body (text : Text) : QuoteForm → Text
  | .basic => escapeLine text
  | .literal => text
  | .multilineBasic => (if text.contains '\n' then ['\n'] else []) ++ escapeLines 0 text
  | .multilineLiteral => (if text.contains '\n' then ['\n'] else []) ++ text

/-- The text in the given form. -/
def QuoteForm.write (text : Text) (form : QuoteForm) : Text :=
  form.marks ++ form.body text ++ form.marks

/-- The text as a value. -/
def quote (text : Text) : Text :=
  (QuoteForm.choose text).write text

/-- A character of a key that needs no quotes. -/
def isBare (c : Char) : Bool :=
  c.isAlphanum || c == '_' || c == '-'

/-- The text as a key. -/
def quoteKey (text : Text) : Text :=
  if !text.isEmpty && text.all isBare then text else (QuoteForm.chooseOneLine text).write text

end Carver.Toml
