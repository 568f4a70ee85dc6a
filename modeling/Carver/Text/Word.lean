import Carver.Text.WordTable

/-!
# Word characters and word edges

A word edge lies between a word character and something that is none. Inside ASCII the word
characters are letters, digits and the underscore.
-/

namespace Carver.Text

/-- The word characters of ASCII. -/
def isAsciiWord (c : Char) : Bool :=
  c.isAlphanum || c == '_'

/-- Whether `c` can be part of a word. -/
def isWord (c : Char) : Bool :=
  if c.toNat < 0x80 then isAsciiWord c
  else wordRanges.any fun (low, high) => low ≤ c.toNat && c.toNat ≤ high

/-- Whether there is a character and it is a word character. -/
def isWordAt : Option Char → Bool
  | none => false
  | some c => isWord c

end Carver.Text
