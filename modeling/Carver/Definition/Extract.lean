import Carver.Definition.Braces
import Carver.Definition.Locate

/-!
# Cutting definitions out

An extraction hands back the text of a definition and the text that is left. A function runs from
its start to the end of the first block after it; a struct is taken with its impl blocks, which may
also stand alone.
-/

namespace Carver

/-- Why a definition could not be taken. -/
inductive Miss where
  /-- Nothing in the text has its shape. -/
  | notFound (request : Request)
  /-- Its block does not end before the text does. -/
  | truncated (request : Request)
  deriving DecidableEq, Repr

/-- A piece of text and what is left without it. -/
structure Extraction where
  text : Text
  remaining : Text
  deriving DecidableEq, Repr

/-- The bytes from `start` to the end of the first block after it. -/
def blockSpan? (text : Text) (start : Nat) : Option Span :=
  (Braces.balancedEnd text start).map (⟨start, ·⟩)

/-- Cuts out the text from `start` to the end of the first block after it. -/
def extractFrom? (text : Text) (start : Nat) : Option Extraction :=
  (blockSpan? text start).map fun span => ⟨text.slice span, text.erase span⟩

/-- Cuts out the named function. -/
def extractFunction (text : Text) (name : String) : Except Miss Extraction :=
  match locateFunction text name with
  | none => .error (.notFound ⟨.function, name⟩)
  | some head =>
    match extractFrom? text head.start with
    | none => .error (.truncated ⟨.function, name⟩)
    | some extraction => .ok extraction

/-- Cuts ascending spans out of the text, whose first character has the offset `base`; the pieces
come in the order of the spans. -/
def cutSpans (base : Nat) (text : Text) : List Span → List Text × Text
  | [] => ([], text)
  | span :: later =>
    let before := text.takeBytes (span.start - base)
    let rest := text.dropBytes (span.start - base)
    let size := span.stop - span.start
    let (pieces, left) := cutSpans span.stop (rest.dropBytes size) later
    (rest.takeBytes size :: pieces, before ++ left)

/-- A struct, its impl blocks in order, and the text that is left. -/
structure StructExtraction where
  definition : Option Text
  impls : List Text
  remaining : Text
  deriving DecidableEq, Repr

/-- The struct, if there is one, and then its impl blocks. -/
def StructExtraction.blocks (e : StructExtraction) : List Text :=
  e.definition.toList ++ e.impls

/-- Cuts out the struct, if there is one, and after that every impl block of its name. -/
def cutStruct (text : Text) (name : String) : StructExtraction :=
  let span := locateStruct text name
  let left := (span.map text.erase).getD text
  let (impls, remaining) := cutSpans 0 left (locateImpls left name)
  ⟨span.map text.slice, impls, remaining⟩

/-- Cuts out the named struct and its impl blocks; a name with neither is not found. -/
def extractStruct (text : Text) (name : String) : Except Miss StructExtraction :=
  let cut := cutStruct text name
  if cut.blocks.isEmpty then .error (.notFound ⟨.struct, name⟩) else .ok cut

end Carver
