import Carver.Text.Bytes

/-!
# Brace-balanced blocks

A block runs from an opening brace to the brace that closes it. Braces are counted wherever they
stand, in strings and comments too. `Block` says what a block is without counting.
-/

namespace Carver.Braces

/-- What lies between matching braces: any other characters and whole blocks. -/
inductive Inside : Text → Prop
  | done : Inside []
  | plain {c : Char} {rest : Text} : c ≠ '{' → c ≠ '}' → Inside rest → Inside (c :: rest)
  | nested {inner rest : Text} :
      Inside inner → Inside rest → Inside ('{' :: inner ++ '}' :: rest)

/-- An opening brace, an inside and a closing brace. -/
inductive Block : Text → Prop
  | wrap {inner : Text} : Inside inner → Block ('{' :: inner ++ ['}'])

/-- Splits after the brace that closes the outermost of `depth` open blocks. -/
def close (depth : Nat) : Text → Option (Text × Text)
  | [] => none
  | c :: rest =>
    if c = '{' then (close (depth + 1) rest).map fun (block, after) => (c :: block, after)
    else if c = '}' then
      if depth ≤ 1 then some ([c], rest)
      else (close (depth - 1) rest).map fun (block, after) => (c :: block, after)
    else (close depth rest).map fun (block, after) => (c :: block, after)

/-- The text up to the first opening brace, the block it opens, and the rest. -/
def firstBlock (text : Text) : Option (Text × Text × Text) :=
  match text.dropWhile (· != '{') with
  | [] => none
  | opening :: rest =>
    (close 1 rest).map fun (block, after) =>
      (text.takeWhile (· != '{'), opening :: block, after)

/-- Offset just past the block that the first opening brace at or after `start` opens; none if
there is no such brace, if the block does not end, or if `start` is no boundary. -/
def balancedEnd (text : Text) (start : Nat) : Option Nat := do
  let ahead ← text.dropBytes? start
  let (before, block, _) ← firstBlock ahead
  return start + Text.size before + Text.size block

end Carver.Braces
