/-!
# Names of definitions and modules

A name is usable when it is a plain Rust identifier: ASCII letters, digits and underscores, no digit
first, not the lone underscore and no keyword.
-/

namespace Carver.Identifier

/-- Strict and reserved keywords, which name nothing without a raw marker. -/
def keywords : List String := [
  "as", "async", "await", "break", "const", "continue", "crate", "dyn", "else", "enum",
  "extern", "false", "fn", "for", "if", "impl", "in", "let", "loop", "match", "mod", "move",
  "mut", "pub", "ref", "return", "self", "Self", "static", "struct", "super", "trait", "true",
  "type", "unsafe", "use", "where", "while", "abstract", "become", "box", "do", "final",
  "macro", "override", "priv", "try", "typeof", "unsized", "virtual", "yield"]

/-- An ASCII letter or the underscore. -/
def isHead (c : Char) : Bool :=
  c.isAlpha || c == '_'

/-- An ASCII letter, a digit or the underscore. -/
def isTail (c : Char) : Bool :=
  c.isAlphanum || c == '_'

/-- A head character followed by tail characters. -/
def isWellFormed : List Char → Bool
  | [] => false
  | c :: rest => isHead c && rest.all isTail

/-- Whether `name` can name a module or a definition. -/
def isUsable (name : String) : Bool :=
  name != "_" && !keywords.contains name && isWellFormed name.toList

end Carver.Identifier
