import Carver.Text.Pieces

/-!
# Paths

A path is kept as it was written. Its components leave out repeated separators and `.`, except a
leading one, and keep `..`; two paths are the same when their components are. Nothing here looks at
a disk.
-/

namespace Carver

/-- A path as written. -/
structure Path where
  text : String
  deriving DecidableEq, Repr

/-- A step of a path. -/
inductive Component where
  | root
  | current
  | up
  | name (text : String)
  deriving DecidableEq, Repr

namespace Path

/-- The pieces between slashes, empty ones included. -/
def segments (path : Path) : List String :=
  (Text.piecesBy '/' path.text.toList).map String.ofList

/-- The path with these pieces between slashes. -/
def ofSegments (segments : List String) : Path :=
  ⟨String.ofList (['/'].intercalate (segments.map String.toList))⟩

/-- A piece that stands for no component unless it comes first. -/
def isIdle (segment : String) : Bool :=
  segment == "" || segment == "."

/-- The component of a piece that is not idle. -/
def component (segment : String) : Component :=
  if segment = ".." then .up else .name segment

/-- The components in order. -/
def components (path : Path) : List Component :=
  match path.segments with
  | [] => []
  | first :: rest =>
    let head :=
      if first = "" then if rest.isEmpty then [] else [.root]
      else if first = "." then [.current]
      else [component first]
    head ++ (rest.filter (!isIdle ·)).map component

/-- Both paths have the same components. -/
def Same (path other : Path) : Prop :=
  path.components = other.components

instance (path other : Path) : Decidable (Same path other) :=
  inferInstanceAs (Decidable (_ = _))

/-- Whether the path starts at the root. -/
def isAbsolute (path : Path) : Bool :=
  path.text.toList.head? == some '/'

/-- Drops idle pieces from the end. -/
def dropIdle (segments : List String) : List String :=
  (segments.reverse.dropWhile isIdle).reverse

/-- The path without its last component; none for the root and the empty path. -/
def parent (path : Path) : Option Path :=
  match path.segments with
  | [] => none
  | first :: rest =>
    match dropIdle rest with
    | [] => if first = "" then none else some ⟨""⟩
    | real =>
      match dropIdle real.dropLast with
      | [] => some (if first = "" then ⟨"/"⟩ else ⟨first⟩)
      | kept => some (ofSegments (first :: kept))

/-- The path followed by `next`; an absolute `next` replaces it. -/
def join (path : Path) (next : String) : Path :=
  if next.toList.head? = some '/' then ⟨next⟩
  else if path.text = "" || path.text.toList.getLast? = some '/' then ⟨path.text ++ next⟩
  else ⟨path.text ++ "/" ++ next⟩

/-- The last component if it is a name. -/
def fileName (path : Path) : Option String :=
  match path.components.getLast? with
  | some (.name text) => some text
  | _ => none

/-- The path with `suffix` written right behind it. -/
def extend (path : Path) (suffix : String) : Path :=
  ⟨path.text ++ suffix⟩

/-- The path from as many directories further up. -/
def climb (path : Path) (levels : Nat) : Path :=
  ⟨String.ofList ((List.replicate levels ['.', '.', '/']).flatten ++ path.text.toList)⟩

/-- The paths under which a file is looked for, with `depth` directories above the working one. -/
def lookups (path : Path) (depth : Nat) : List Path :=
  if path.isAbsolute then [path] else (List.range (depth + 1)).map path.climb

/-- The path, its parent, the parent's parent and so on, at most `limit` of them. -/
def ancestorsUpTo : Nat → Path → List Path
  | 0, _ => []
  | limit + 1, path =>
    path ::
      match path.parent with
      | none => []
      | some above => ancestorsUpTo limit above

/-- The path, its parent, the parent's parent and so on. -/
def ancestors (path : Path) : List Path :=
  ancestorsUpTo (path.text.length + 1) path

end Path

end Carver
