import Carver.Data
import Carver.Text.Bytes

/-!
# Unquoted values

Truth values, numbers, dates and times. A whole number fits 64 bits with a sign; a date or time is
kept by its text.
-/

namespace Carver.Toml

/-- Digits with single underscores between them, without the underscores. -/
def digits? (isDigit : Char → Bool) : Text → Option Text
  | [] => none
  | [c] => if isDigit c then some [c] else none
  | c :: '_' :: rest => if isDigit c then (digits? isDigit rest).map (c :: ·) else none
  | c :: rest => if isDigit c then (digits? isDigit rest).map (c :: ·) else none

/-- The number that digits write in a base. -/
def numberIn (base : Nat) (digits : Text) : Nat :=
  digits.foldl (fun n c =>
    base * n + if c.isDigit then c.toNat - '0'.toNat else c.toLower.toNat - 'a'.toNat + 10) 0

/-- Whether a digit is one in base 16. -/
def isHexDigit (c : Char) : Bool :=
  c.isDigit || ('a' ≤ c && c ≤ 'f') || ('A' ≤ c && c ≤ 'F')

/-- A whole number in base 10 without sign; no zero leads others. -/
def decimal? (text : Text) : Option Nat :=
  match digits? Char.isDigit text with
  | some ['0'] => some 0
  | some ('0' :: _) => none
  | some digits => some (numberIn 10 digits)
  | none => none

/-- A sign, if there is one, and the rest. -/
def splitSign : Text → Bool × Text
  | '-' :: rest => (true, rest)
  | '+' :: rest => (false, rest)
  | text => (false, text)

/-- The size of the least number that fits 64 bits with a sign. -/
def signedBound : Nat := 9223372036854775808

/-- The number with its sign, if it fits 64 bits. -/
def signed? (negative : Bool) (size : Nat) : Option Int :=
  if negative then if size ≤ signedBound then some (-(size : Int)) else none
  else if size < signedBound then some size
  else none

/-- A whole number. -/
def integer? (text : Text) : Option Int :=
  match text with
  | '0' :: 'x' :: rest =>
    ((digits? isHexDigit rest).map (numberIn 16)).bind (signed? false)
  | '0' :: 'o' :: rest =>
    ((digits? (fun c => '0' ≤ c && c ≤ '7') rest).map (numberIn 8)).bind (signed? false)
  | '0' :: 'b' :: rest =>
    ((digits? (fun c => c == '0' || c == '1') rest).map (numberIn 2)).bind (signed? false)
  | _ =>
    let (negative, rest) := splitSign text
    (decimal? rest).bind (signed? negative)

/-- A number with a fraction or an exponent, without sign: its digits are those of `size`, and
`size` counts in units of ten to the power `exponent`. -/
structure Scientific where
  size : Nat
  exponent : Int
  deriving DecidableEq, Repr

/-- The least number that rounds to none of the finite ones of 64 bits. -/
def Scientific.bound : Nat :=
  Nat.pow 2 1024 - Nat.pow 2 970

/-- Whether the number is too large for 64 bits, as ten to the power 309 is; powers that exceed any
need are cut short. -/
def Scientific.isTooLarge (number : Scientific) : Bool :=
  if number.size = 0 then false
  else if number.exponent < 0 then
    bound * Nat.pow 10 (min number.exponent.natAbs (Nat.log2 number.size)) ≤ number.size
  else 309 < number.exponent || bound ≤ number.size * Nat.pow 10 number.exponent.toNat

/-- The exponent behind its letter. -/
def exponent? (text : Text) : Option Int := do
  let (negative, rest) := splitSign text
  let size := numberIn 10 (← digits? Char.isDigit rest)
  return if negative then -(size : Int) else size

/-- The exponent that ends a number, with its letter; zero if there is none. -/
def ending? : Text → Option Int
  | [] => some 0
  | c :: rest => if c = 'e' || c = 'E' then exponent? rest else none

/-- A digit or an underscore. -/
def isDigitOrGap (c : Char) : Bool :=
  c.isDigit || c == '_'

/-- A number with a fraction or an exponent, without sign. -/
def scientific? (text : Text) : Option Scientific := do
  let whole ← decimal? (text.takeWhile isDigitOrGap)
  match text.dropWhile isDigitOrGap with
  | '.' :: behind =>
    let fraction ← digits? Char.isDigit (behind.takeWhile isDigitOrGap)
    let exponent ← ending? (behind.dropWhile isDigitOrGap)
    return ⟨whole * Nat.pow 10 fraction.length + numberIn 10 fraction, exponent - fraction.length⟩
  | [] => none
  | rest =>
    let exponent ← ending? rest
    return ⟨whole, exponent⟩

/-- Whether the text is a number with a fraction or an exponent, or none of the finite ones. -/
def isFloat (text : Text) : Bool :=
  let (negative, rest) := splitSign text
  rest = "inf".toList || rest = "nan".toList ||
    (scientific? rest).any fun number => negative || !number.isTooLarge

/-- Days of the month. -/
def daysIn (year month : Nat) : Nat :=
  if month = 2 then
    if year % 4 = 0 ∧ (year % 100 ≠ 0 ∨ year % 400 = 0) then 29 else 28
  else if month = 4 ∨ month = 6 ∨ month = 9 ∨ month = 11 then 30
  else 31

/-- A number of two digits within bounds. -/
def pair? (a b : Char) (low high : Nat) : Option Nat :=
  if a.isDigit && b.isDigit then
    let n := numberIn 10 [a, b]
    if low ≤ n ∧ n ≤ high then some n else none
  else none

/-- What follows a date, if one is first. -/
def afterDate? : Text → Option Text
  | a :: b :: c :: d :: '-' :: e :: f :: '-' :: g :: h :: rest => do
    guard ([a, b, c, d].all Char.isDigit)
    let month ← pair? e f 1 12
    let _ ← pair? g h 1 (daysIn (numberIn 10 [a, b, c, d]) month)
    return rest
  | _ => none

/-- What follows a time of day, if one is first. -/
def afterTime? : Text → Option Text
  | a :: b :: ':' :: c :: d :: ':' :: e :: f :: rest => do
    let _ ← pair? a b 0 23
    let _ ← pair? c d 0 59
    let _ ← pair? e f 0 60
    match rest with
    | '.' :: x :: more => if x.isDigit then return more.dropWhile Char.isDigit else none
    | '.' :: [] => none
    | _ => return rest
  | _ => none

/-- Whether the text is an offset from universal time, or nothing. -/
def isOffset : Text → Bool
  | [] | ['Z'] | ['z'] => true
  | [sign, a, b, ':', c, d] =>
    (sign == '+' || sign == '-') && (pair? a b 0 23).isSome && (pair? c d 0 59).isSome
  | _ => false

/-- Whether the text is a date, a time of day, or both with or without an offset. -/
def isMoment (text : Text) : Bool :=
  match afterDate? text with
  | some [] => true
  | some (c :: rest) =>
    (c == 'T' || c == 't' || c == ' ') && ((afterTime? rest).map isOffset).getD false
  | none => afterTime? text == some []

/-- The key under which a date or time stands in its table. -/
def momentKey : String :=
  "$__toml_private_datetime"

/-- The value that the text writes. -/
def scalar? (text : Text) : Option Data :=
  if text = "true".toList then some (.bool true)
  else if text = "false".toList then some (.bool false)
  else
    match integer? text with
    | some n => some (.number n)
    | none =>
      if isFloat text then some (.decimal (String.ofList text))
      else if isMoment text then some (.table [(momentKey, .text (String.ofList text))])
      else none

/-- A character of an unquoted value. -/
def isScalar (c : Char) : Bool :=
  c.isAlphanum || c == '_' || c == '+' || c == '-' || c == '.' || c == ':'

/-- An unquoted value and what follows it; between a date and a time of day a space may stand. -/
def readScalar (text : Text) : Option (Data × Text) :=
  let first := text.takeWhile isScalar
  let rest := text.dropWhile isScalar
  match afterDate? first, rest with
  | some [], ' ' :: c :: more =>
    if c.isDigit then
      let second := (c :: more).takeWhile isScalar
      (scalar? (first ++ ' ' :: second)).map (·, (c :: more).dropWhile isScalar)
    else (scalar? first).map (·, rest)
  | _, _ => (scalar? first).map (·, rest)

end Carver.Toml
