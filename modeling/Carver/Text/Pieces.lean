import Carver.Text.Bytes

/-!
# Pieces of texts
-/

namespace Carver.Text

/-- The pieces of a text between the separators, at least one. -/
def piecesBy (separator : Char) : Text → List Text
  | [] => [[]]
  | c :: rest =>
    if c = separator then [] :: piecesBy separator rest
    else
      match piecesBy separator rest with
      | [] => [[c]]
      | piece :: pieces => (c :: piece) :: pieces

end Carver.Text
