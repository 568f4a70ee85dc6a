import Carver.Disk

/-!
# File trees

A file tree is a disk without links as a value: what is at each location, and the location from
which relative paths start. `FileTree.locate` follows a path piece by piece, as a system does: every
directory on the way has to be there, and `..` leads to the directory above.
-/

namespace Carver

/-- The names that lead from the root to a place. -/
abbrev Location := List String

/-- What is at a place. -/
inductive Entry where
  | file (bytes : ByteArray)
  | directory

/-- The kind of an entry. -/
def Entry.kind : Entry → EntryKind
  | .file _ => .file
  | .directory => .directory

/-- A disk as a value. -/
structure FileTree where
  /-- Where relative paths start. -/
  home : Location
  entries : List (Location × Entry)

/-- A path as the system reads it: the directories to pass, the name to look up in the last of
them, if the path does not end in a dot name or at the root, and whether a slash follows it. -/
structure Trail where
  steps : List String
  last : Option String
  slash : Bool
  deriving DecidableEq, Repr

/-- The longest name, in bytes. -/
def maxNameSize : Nat := 255

/-- The longest path, in bytes. -/
def maxPathSize : Nat := 4095

/-- Reads a path as the system does. -/
def Path.trail (path : Path) : Trail :=
  let names := path.segments.filter (· != "")
  match names.getLast? with
  | none => ⟨[], none, true⟩
  | some last =>
    if last = "." || last = ".." then ⟨names, none, true⟩
    else ⟨names.dropLast, some last, path.segments.getLast? == some ""⟩

namespace FileTree

/-- What is at a location; the root is a directory. -/
def get? (tree : FileTree) (location : Location) : Option Entry :=
  if location = [] then some .directory else tree.entries.lookup location

/-- Puts an entry at a location, over what is there. -/
def put (tree : FileTree) (location : Location) (entry : Entry) : FileTree :=
  { tree with entries := (location, entry) :: tree.entries.filter (·.1 != location) }

/-- The place of a name in a directory, if the name is short enough. -/
def child (location : Location) (name : String) : Except Fault Location :=
  if maxNameSize < name.utf8ByteSize then .error .nameTooLong else .ok (location ++ [name])

/-- Passes directories one after the other. -/
def walk (tree : FileTree) (location : Location) : List String → Except Fault Location
  | [] => .ok location
  | step :: rest =>
    if step = "." then walk tree location rest
    else if step = ".." then walk tree location.dropLast rest
    else
      match child location step with
      | .error fault => .error fault
      | .ok next =>
        match tree.get? next with
        | none => .error .notFound
        | some (.file _) => .error .notDirectory
        | some .directory => walk tree next rest

/-- Faults of a path that show before the disk is looked at. -/
def checkPath (path : Path) : Except Fault Unit :=
  if path.text.toList.contains '\x00' then .error .nulInName
  else if path.text = "" then .error .notFound
  else if maxPathSize < path.text.utf8ByteSize then .error .nameTooLong
  else .ok ()

/-- The directory in which the last name of the path is looked up. -/
def holderOf (tree : FileTree) (path : Path) : Except Fault Location :=
  match checkPath path with
  | .error fault => .error fault
  | .ok () => tree.walk (if path.isAbsolute then [] else tree.home) path.trail.steps

/-- The place that the path denotes, whether or not something is there. -/
def locate (tree : FileTree) (path : Path) : Except Fault Location :=
  match tree.holderOf path with
  | .error fault => .error fault
  | .ok holder =>
    match path.trail.last with
    | none => .ok holder
    | some name => child holder name

/-- What the path leads to; a slash at the end asks for a directory. -/
def entryAt (tree : FileTree) (path : Path) : Except Fault Entry :=
  match tree.locate path with
  | .error fault => .error fault
  | .ok location =>
    match tree.get? location with
    | none => .error .notFound
    | some (.file bytes) => if path.trail.slash then .error .notDirectory else .ok (.file bytes)
    | some .directory => .ok .directory

/-- The bytes of the file at the path. -/
def readBytes (tree : FileTree) (path : Path) : Except Fault ByteArray :=
  match tree.entryAt path with
  | .error fault => .error fault
  | .ok .directory => .error .isDirectory
  | .ok (.file bytes) => .ok bytes

/-- The text of the file at the path. -/
def readText (tree : FileTree) (path : Path) : Except Fault Text :=
  match tree.readBytes path with
  | .error fault => .error fault
  | .ok bytes =>
    match String.fromUTF8? bytes with
    | none => .error .notUtf8
    | some text => .ok text.toList

/-- Where a file can be written: a place that is no directory, named without a slash at the end. -/
def placeForFile (tree : FileTree) (path : Path) : Except Fault Location :=
  match tree.holderOf path with
  | .error fault => .error fault
  | .ok holder =>
    match path.trail.last with
    | none => .error .isDirectory
    | some name =>
      if path.trail.slash then .error .isDirectory
      else
        match child holder name with
        | .error fault => .error fault
        | .ok location =>
          match tree.get? location with
          | some .directory => .error .isDirectory
          | _ => .ok location

/-- Writes the bytes of a file. -/
def writeBytes (tree : FileTree) (path : Path) (bytes : ByteArray) : Except Fault FileTree :=
  (tree.placeForFile path).map fun location => tree.put location (.file bytes)

/-- Writes the text of a file. -/
def writeText (tree : FileTree) (path : Path) (text : Text) : Except Fault FileTree :=
  tree.writeBytes path (String.ofList text).toUTF8

/-- Makes a directory where nothing is. -/
def makeDirectory (tree : FileTree) (path : Path) : Except Fault FileTree :=
  match tree.holderOf path with
  | .error fault => .error fault
  | .ok holder =>
    match path.trail.last with
    | none => .error .alreadyExists
    | some name =>
      match child holder name with
      | .error fault => .error fault
      | .ok location =>
        if (tree.get? location).isSome then .error .alreadyExists
        else .ok (tree.put location .directory)

/-- Empties the target, then gives it the bytes that the source has by then. -/
def copyFile (tree : FileTree) (source target : Path) : Except Fault FileTree :=
  match tree.readBytes source with
  | .error fault => .error fault
  | .ok _ =>
    match tree.writeBytes target ByteArray.empty with
    | .error fault => .error fault
    | .ok emptied =>
      match emptied.readBytes source with
      | .error fault => .error fault
      | .ok bytes => emptied.writeBytes target bytes

/-- The answer of an operation, which changes the tree only when it succeeds. -/
def apply (operation : FileTree → Except Fault FileTree) : StateM FileTree (Except Fault Unit) :=
  fun tree =>
    match operation tree with
    | .error fault => (.error fault, tree)
    | .ok changed => (.ok (), changed)

instance : Disk (StateM FileTree) where
  kindAt path := fun tree =>
    (match tree.entryAt path with
      | .error _ => none
      | .ok entry => some entry.kind, tree)
  readText path := fun tree => (tree.readText path, tree)
  writeText path text := apply (·.writeText path text)
  makeDirectory path := apply (·.makeDirectory path)
  copyFile source target := apply (·.copyFile source target)
  depth := fun tree => (tree.home.length, tree)

end FileTree

end Carver
