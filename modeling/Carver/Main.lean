import Carver.Command

/-!
# The program

The disk of the system, and the program's entry.
-/

namespace Carver.Main

/-- The number that the system gives an error. -/
def codeOf? : IO.Error → Option UInt32
  | .alreadyExists _ code _ | .noFileOrDirectory _ code _ | .inappropriateType _ code _
  | .invalidArgument _ code _ | .permissionDenied _ code _ | .resourceExhausted _ code _
  | .noSuchThing _ code _ | .otherError code _ | .unsatisfiedConstraints code _ => some code
  | _ => none

/-- The fault behind an error of the system. -/
def faultOf (error : IO.Error) : Fault :=
  match (codeOf? error).map UInt32.toNat with
  | some 2 => .notFound
  | some 17 => .alreadyExists
  | some 20 => .notDirectory
  | some 21 => .isDirectory
  | some 36 => .nameTooLong
  | _ => .other (toString error)

/-- Runs an action on a path that the system can be given; its error is the answer. -/
def attempt {α : Type} (path : Path) (action : String → IO α) : IO (Except Fault α) := do
  if path.text.toList.contains '\x00' then return .error .nulInName
  try
    return .ok (← action path.text)
  catch error => return .error (faultOf error)

instance : Disk IO where
  kindAt path := do
    let answer ← attempt path fun name => do
      match (← (System.mkFilePath [name]).metadata).type with
      | .dir => return some EntryKind.directory
      | .file => return some EntryKind.file
      | _ => return none
    match answer with
    | .ok kind => return kind
    | .error _ => return none
  readText path := do
    match ← attempt path fun name => IO.FS.readBinFile name with
    | .error fault => return .error fault
    | .ok bytes =>
      match String.fromUTF8? bytes with
      | none => return .error .notUtf8
      | some text => return .ok text.toList
  writeText path text := attempt path fun name => IO.FS.writeFile name (String.ofList text)
  makeDirectory path := attempt path fun name => IO.FS.createDir name
  copyFile source target := do
    match ← attempt source fun name => IO.FS.readBinFile name with
    | .error fault => return .error fault
    | .ok _ =>
      match ← attempt target fun name => IO.FS.writeBinFile name ByteArray.empty with
      | .error fault => return .error fault
      | .ok () =>
        match ← attempt source fun name => IO.FS.readBinFile name with
        | .error fault => return .error fault
        | .ok bytes => attempt target fun name => IO.FS.writeBinFile name bytes
  depth := do
    let directory : Path := ⟨(← IO.currentDir).toString⟩
    return (directory.segments.filter (· != "")).length

/-- The variables of the environment with their values. -/
def environment : IO (List (String × String)) := do
  let block ← IO.FS.readFile "/proc/self/environ"
  return (block.splitOn "\x00").filterMap fun entry =>
    match entry.splitOn "=" with
    | name :: value@(_ :: _) => some (name, "=".intercalate value)
    | _ => none

/-- Writes a record to the error stream. -/
def report (format : LogFormat) (record : Log.Record) : IO Unit :=
  match format with
  | .pretty => IO.eprintln (record.level.label ++ " " ++ record.message)
  | .json =>
    IO.eprintln ("\x7b\"level\":" ++ Json.quote record.level.label ++ ",\"message\":"
      ++ Json.quote record.message ++ ",\"target\":" ++ Json.quote record.target ++ "\x7d")

end Carver.Main

open Carver in
/-- Runs the command that the arguments name. -/
def main (arguments : List String) : IO UInt32 := do
  let stdout ← IO.getStdout
  let setting : Command.Setting := ⟨← Main.environment, ← stdout.isTty⟩
  match ← (Command.run setting arguments : IO _) with
  | none =>
    IO.eprint Command.helpText
    return 2
  | some outcome =>
    outcome.records.forM (Main.report outcome.format)
    stdout.putStr outcome.output
    match outcome.error with
    | none => pure ()
    | some line => IO.eprintln line
    return outcome.status.toUInt32
