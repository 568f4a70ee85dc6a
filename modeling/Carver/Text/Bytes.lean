/-!
# Texts and byte offsets

A text is a list of characters; a place in it is named by its offset into the UTF-8 form. Cutting at
an offset is total: an offset inside a character or past the end keeps whole characters only.
`Text.Admits` singles out the spans at which nothing is rounded.
-/

namespace Carver

/-- A text, character by character. -/
abbrev Text := List Char

/-- A range of byte offsets, `stop` excluded. -/
structure Span where
  start : Nat
  stop : Nat
  deriving DecidableEq, Repr

namespace Text

/-- Length of the UTF-8 form in bytes. -/
def size : Text → Nat
  | [] => 0
  | c :: rest => c.utf8Size + size rest

/-- The longest beginning that takes at most `n` bytes. -/
def takeBytes (n : Nat) : Text → Text
  | [] => []
  | c :: rest => if c.utf8Size ≤ n then c :: takeBytes (n - c.utf8Size) rest else []

/-- What follows the longest beginning that takes at most `n` bytes. -/
def dropBytes (n : Nat) : Text → Text
  | [] => []
  | c :: rest => if c.utf8Size ≤ n then dropBytes (n - c.utf8Size) rest else c :: rest

/-- Whether `n` is an offset at which a character starts or the text ends. -/
def IsBoundary (text : Text) (n : Nat) : Prop :=
  size (takeBytes n text) = n

instance (text : Text) (n : Nat) : Decidable (IsBoundary text n) :=
  inferInstanceAs (Decidable (_ = _))

/-- Both ends of the span are boundaries of the text. -/
def Admits (text : Text) (span : Span) : Prop :=
  IsBoundary text span.start ∧ IsBoundary text span.stop

instance (text : Text) (span : Span) : Decidable (Admits text span) :=
  inferInstanceAs (Decidable (_ ∧ _))

/-- The characters inside the span. -/
def slice (text : Text) (span : Span) : Text :=
  dropBytes span.start (takeBytes span.stop text)

/-- The text before the span followed by the text after it. -/
def erase (text : Text) (span : Span) : Text :=
  takeBytes span.start text ++ dropBytes span.stop text

/-- The text without the span, if both ends are boundaries. -/
def erase? (text : Text) (span : Span) : Option Text :=
  if Admits text span then some (erase text span) else none

/-- The text from the offset on, if it is a boundary. -/
def dropBytes? (text : Text) (n : Nat) : Option Text :=
  if IsBoundary text n then some (dropBytes n text) else none

/-- What precedes the first occurrence of `word`, and the rest, which begins with it. -/
def splitAtWord (word : Text) : Text → Option (Text × Text)
  | [] => if word.isEmpty then some ([], []) else none
  | c :: rest =>
    if word.isPrefixOf (c :: rest) then some ([], c :: rest)
    else (splitAtWord word rest).map fun (before, after) => (c :: before, after)

/-- The first line with its line feed, if there is one, and what follows it. -/
def splitLine : Text → Option (Text × Text)
  | [] => none
  | c :: rest =>
    if c = '\n' then some (['\n'], rest)
    else (splitLine rest).map fun (line, after) => (c :: line, after)

end Text

end Carver
