import Carver.Module.Content

/-!
# Declaring modules in the source

The declarations go below the line that holds the anchor, or to the top when the anchor is empty or
absent.
-/

namespace Carver.Module

/-- The lines joined by line feeds. -/
def joinLines (lines : List String) : Text :=
  ['\n'].intercalate (lines.map String.toList)

/-- One declaring line for each module. -/
def declarations (modules : List String) : Text :=
  joinLines (modules.map declaration)

/-- One importing line for each module. -/
def globImports (modules : List String) : Text :=
  joinLines (modules.map globImport)

/-- Where the declarations go. -/
inductive Placement where
  /-- Between two parts of the text, the first of which ends with the anchor's line. -/
  | below (before after : Text)
  /-- At the end, because the anchor is on a last line without line feed. -/
  | atEnd
  /-- At the top, because there is no anchor. -/
  | atTop
  deriving DecidableEq, Repr

/-- Where the declarations go for this anchor. -/
def placement (text : Text) (anchor : String) : Placement :=
  if anchor.toList.isEmpty then .atTop
  else
    match Text.splitAtWord anchor.toList text with
    | none => .atTop
    | some (before, found) =>
      match Text.splitLine found with
      | none => .atEnd
      | some (line, after) => .below (before ++ line) after

/-- The text with the declarations and imports of the modules; unchanged when there are none. -/
def insertDeclarations (text : Text) (anchor : String) (modules : List String) : Text :=
  if modules.isEmpty then text
  else
    let block := declarations modules ++ ['\n', '\n'] ++ globImports modules
    match placement text anchor with
    | .below before after => before ++ ['\n'] ++ block ++ ['\n'] ++ after
    | .atEnd => text ++ ['\n', '\n'] ++ block ++ ['\n']
    | .atTop => block ++ ['\n', '\n'] ++ text

end Carver.Module
