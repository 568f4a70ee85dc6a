import Carver.Path

/-!
# Disks

`Disk m` is what the program asks of a disk; every answer is a value, faults included. Directories
are made from the innermost one that is missing outwards, so a fault below leaves those above.
-/

namespace Carver

/-- Why an operation on a disk did not succeed. -/
inductive Fault where
  | notFound
  | alreadyExists
  | notDirectory
  | isDirectory
  | nameTooLong
  /-- The path holds a NUL and cannot be handed to the system. -/
  | nulInName
  /-- The file is no UTF-8 text. -/
  | notUtf8
  /-- Anything else, in the system's words. -/
  | other (text : String)
  deriving DecidableEq, Repr

/-- The wording of a fault. -/
def Fault.message : Fault → String
  | .notFound => "No such file or directory (os error 2)"
  | .alreadyExists => "File exists (os error 17)"
  | .notDirectory => "Not a directory (os error 20)"
  | .isDirectory => "Is a directory (os error 21)"
  | .nameTooLong => "File name too long (os error 36)"
  | .nulInName => "file name contained an unexpected NUL byte"
  | .notUtf8 => "stream did not contain valid UTF-8"
  | .other text => text

/-- What a path leads to. -/
inductive EntryKind where
  | file
  | directory
  deriving DecidableEq, Repr

/-- The operations of a disk. -/
class Disk (m : Type → Type) where
  /-- What is at the path, if anything. -/
  kindAt : Path → m (Option EntryKind)
  /-- The text of a file. -/
  readText : Path → m (Except Fault Text)
  /-- Makes a file with this text, over a file that is there. -/
  writeText : Path → Text → m (Except Fault Unit)
  /-- Makes a directory inside one that is there. -/
  makeDirectory : Path → m (Except Fault Unit)
  /-- Copies the bytes of one file to another one, which is emptied first. -/
  copyFile : Path → Path → m (Except Fault Unit)
  /-- How many directories lie above the working one. -/
  depth : m Nat

namespace Disk

variable {m : Type → Type} [Monad m] [Disk m]

/-- Whether something is at the path. -/
def isThere (path : Path) : m Bool :=
  (·.isSome) <$> kindAt path

/-- Whether a file is at the path. -/
def isFile (path : Path) : m Bool :=
  (· == some .file) <$> kindAt path

/-- The first of the paths that passes the test. -/
def firstThat (test : Path → m Bool) : List Path → m (Option Path)
  | [] => return none
  | path :: rest => do
    if ← test path then return some path else firstThat test rest

/-- Looks for a file: an absolute path leads to it, another one does so from the working directory
or from the next of the directories above it. -/
def findFile (path : Path) : m (Option Path) := do
  firstThat isFile (path.lookups (← depth))

/-- Whether a directory is at the path. -/
def isDirectory (path : Path) : m Bool :=
  (· == some .directory) <$> kindAt path

/-- The fault, unless a directory is at the path all the same. -/
def unlessDirectory (path : Path) (fault : Fault) : m (Except Fault Unit) := do
  if ← isDirectory path then return .ok () else return .error fault

/-- Makes the first directory of the list, for which the others, its ancestors, are made first where
they are missing. -/
def makeChain : List Path → m (Except Fault Unit)
  | [] => return .ok ()
  | path :: above => do
    if path.text = "" then return .ok ()
    match ← makeDirectory path with
    | .ok () => return .ok ()
    | .error .notFound =>
      match ← makeChain above with
      | .error fault => return .error fault
      | .ok () =>
        match ← makeDirectory path with
        | .ok () => return .ok ()
        | .error fault => unlessDirectory path fault
    | .error fault => unlessDirectory path fault

/-- Makes the directory and those above it where they are missing. -/
def makeDirectories (path : Path) : m (Except Fault Unit) :=
  makeChain path.ancestors

/-- The directory that holds the path, unless that is the working directory by default. -/
def holder? (path : Path) : Option Path :=
  path.parent.filter (·.text != "")

/-- Writes a file, after making the directory that holds it. -/
def storeText (path : Path) (text : Text) : m (Except Fault Unit) := do
  match holder? path with
  | none => writeText path text
  | some directory =>
    match ← makeDirectories directory with
    | .error fault => return .error fault
    | .ok () => writeText path text

end Disk

end Carver
