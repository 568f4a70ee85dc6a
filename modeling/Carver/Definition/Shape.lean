import Carver.Pattern.Scan
import Carver.Text.Blank

/-!
# The surface shape of definitions

Definitions are recognised by their text alone. Doc lines, one-line attributes and indentation
directly above or before an item belong to it. Generics hold no `>`, parameter lists no `)` and
field lists no `}`; an impl block ends at the first line that is a lone `}` at column zero.
-/

namespace Carver.Shape

open Pattern

/-- Any white space. -/
def space : Pattern :=
  .run Text.isBlank

/-- At least one white space. -/
def gap : Pattern :=
  run1 Text.isBlank

/-- Spaces and tabs. -/
def indent : Pattern :=
  .run Text.isIndent

/-- Any characters but this one. -/
def upTo (c : Char) : Pattern :=
  .run (· != c)

/-- A line of documentation, indentation and line feed included. -/
def docLine : Pattern :=
  all [indent, literal "///".toList, upTo '\n', char '\n']

/-- An attribute that fills a line, up to and including the line feed. -/
def attributeLine : Pattern :=
  all [indent, literal "#[".toList, upTo '\n', char ']', indent, .maybe (char '\r'), char '\n']

/-- What may stand in front of an item and belongs to it. -/
def leading : Pattern :=
  all [.many docLine, .many attributeLine, indent]

/-- `pub`, possibly with a restriction in parentheses. -/
def visibility : Pattern :=
  all [literal "pub".toList, .maybe (all [space, char '(', upTo ')', char ')']), gap]

/-- A generic parameter list. -/
def generics : Pattern :=
  all [char '<', upTo '>', char '>']

/-- An optional word in front of `fn`. -/
def qualifier (word : String) : Pattern :=
  .maybe (all [literal word.toList, gap])

/-- A result type, up to the body. -/
def result : Pattern :=
  all [space, literal "->".toList, space, run1 (· != '{')]

/-- A function up to and including the brace that opens its body. -/
def function (name : String) : Pattern :=
  all [leading, .maybe visibility, qualifier "const", qualifier "async", qualifier "unsafe",
    .wordEdge, literal "fn".toList, gap, literal name.toList, space, .maybe generics, space,
    char '(', upTo ')', char ')', .maybe result, space, char '{']

/-- A whole braced struct. -/
def struct (name : String) : Pattern :=
  all [leading, .maybe visibility, .wordEdge, literal "struct".toList, gap, literal name.toList,
    space, .maybe generics, space, char '{', upTo '}', char '}']

/-- A whole inherent impl block, with the blanks that end its last line. -/
def impl (name : String) : Pattern :=
  all [leading, .wordEdge, literal "impl".toList, .maybe generics, gap, literal name.toList,
    .maybe generics, space, char '{', .shortRun (fun _ => true), char '\n', char '}', indent,
    .maybe (char '\r'), .lineEnd]

end Carver.Shape
