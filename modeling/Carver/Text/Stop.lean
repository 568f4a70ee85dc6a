import Carver.Text.Bytes

/-!
# Why a text is not read

A text that has not the form a reader looks for is left to the caller. A part that would begin or
end inside a character cannot be taken at all.
-/

namespace Carver.Text

/-- Why a text is not read. -/
inductive Stop where
  /-- It does not have the form that is asked for. -/
  | formless
  /-- A part of it would be cut inside a character. -/
  | insideCharacter
  deriving DecidableEq, Repr

/-- What was read, if anything; else the text has not the form. -/
def orFormless {α : Type} : Option α → Except Stop α
  | some read => .ok read
  | none => .error .formless

/-- The part of the text between two offsets, which have to be boundaries. -/
def part (text : Text) (start stop : Nat) : Except Stop Text :=
  if Admits text ⟨start, stop⟩ then .ok (slice text ⟨start, stop⟩) else .error .insideCharacter

end Carver.Text
