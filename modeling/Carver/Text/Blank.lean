/-!
# White space

The characters of the Unicode property White_Space, and trimming by them.
-/

namespace Carver.Text

/-- Whether `c` has the Unicode property White_Space. -/
def isBlank (c : Char) : Bool :=
  let n := c.toNat
  (0x9 ≤ n && n ≤ 0xD) || n == 0x20 || n == 0x85 || n == 0xA0 || n == 0x1680
    || (0x2000 ≤ n && n ≤ 0x200A) || n == 0x2028 || n == 0x2029 || n == 0x202F
    || n == 0x205F || n == 0x3000

/-- Whether `c` is a space or a tab, the white space that stays on its line. -/
def isIndent (c : Char) : Bool :=
  c == ' ' || c == '\t'

/-- Drops the characters that `drops` accepts from the end. -/
def trimEndBy (drops : Char → Bool) (text : List Char) : List Char :=
  (text.reverse.dropWhile drops).reverse

/-- Drops the characters that `drops` accepts from both ends. -/
def trimBy (drops : Char → Bool) (text : List Char) : List Char :=
  trimEndBy drops (text.dropWhile drops)

/-- Drops white space from both ends. -/
def trim (text : List Char) : List Char :=
  trimBy isBlank text

end Carver.Text
