import Carver.Definition.Shape
import Carver.Plan

/-!
# Locating definitions

Where a definition starts, doc lines and attributes included. The first textual match wins.
-/

namespace Carver

/-- Bytes from the first line that belongs to the function up to the brace that opens its body. -/
def locateFunction (text : Text) (name : String) : Option Span :=
  ((Shape.function name).find? text).map (·.span)

/-- Bytes of the whole struct. -/
def locateStruct (text : Text) (name : String) : Option Span :=
  ((Shape.struct name).find? text).map (·.span)

/-- Offset at which the definition starts. -/
def locate (text : Text) (request : Request) : Option Nat :=
  match request.kind with
  | .function => (locateFunction text request.name).map (·.start)
  | .struct => (locateStruct text request.name).map (·.start)

/-- Blanks that may follow the brace that closes an impl block on its line. -/
def isLineTail (c : Char) : Bool :=
  Text.isIndent c || c == '\r'

/-- Bytes of the inherent impl blocks in order, each through its closing brace. -/
def locateImpls (text : Text) (name : String) : List Span :=
  ((Shape.impl name).findAll text).map fun hit =>
    ⟨hit.start.offset, (hit.stop.retreat isLineTail).offset⟩

end Carver
