import Carver.Config.Boxed
import Carver.Config.Check
import Carver.Config.Document
import Carver.Config.Environment
import Carver.Toml.Reader

/-!
# Loading and saving configurations

The environment lies over the configuration file and that over the built-in configuration. Tables
are laid over each other key by key; a list replaces a list.
-/

namespace Carver.Config

/-- Why no configuration is loaded. -/
inductive LoadFailure where
  /-- There is a fault in it. -/
  | refused (cause : ConfigError)
  /-- The environment cannot be read, which ends the program. -/
  | aborted
  deriving DecidableEq, Repr

/-- The configuration that the layers make up, if it passes the checks. -/
def ofLayers (file environment : Data) : Except ConfigError Config :=
  match Config.ofData? .anyLists ((Defaults.config.toData.merge file).merge environment) with
  | none => .error (.unreadable "the settings do not have the form of a configuration")
  | some config =>
    match config.check with
    | .error cause => .error cause
    | .ok () => .ok config

section

variable {m : Type → Type} [Monad m] [Disk m]

/-- The file to load: the given one, which has to be there, or the first of the usual ones. -/
def chooseFile (given : Option Path) : m (Except ConfigError (Option Path)) :=
  match given with
  | some path => do
    if ← Disk.isThere path then return .ok (some path) else return .error (.fileMissing path)
  | none => .ok <$> Disk.firstThat Disk.isThere (Defaults.configPaths.map (⟨·⟩))

/-- The layer of a file. What is at the path need not be one: then the file is looked for further
up, and without one there are no settings. -/
def fileLayer (path : Path) : m (Except ConfigError Data) := do
  match ← Disk.findFile path with
  | none => return .ok (.table [])
  | some file =>
    match ← Disk.readText file with
    | .error fault => return .error (.unreadable fault.message)
    | .ok text =>
      match (Toml.read? text).bind Data.unboxEach? with
      | none => return .error (.unreadable ("no TOML document in " ++ file.text))
      | some layer => return .ok layer

/-- Loads the configuration. The environment is read before the file, and after the file is known
to be there. -/
def load (given : Option Path) (environment : List (String × String)) :
    m (Except LoadFailure Config) := do
  match ← chooseFile given with
  | .error cause => return .error (.refused cause)
  | .ok file =>
    match Environment.layer? environment with
    | none => return .error .aborted
    | some upper =>
      let lower ←
        match file with
        | none => pure (.ok (.table []))
        | some path => fileLayer path
      return (lower.bind (ofLayers · upper)).mapError .refused

/-- Saves the configuration as TOML, after making the directory that holds the file. -/
def save (config : Config) (path : Path) : m (Except Error Unit) := do
  let made : Except Error Unit ←
    match Disk.holder? path with
    | none => pure (.ok ())
    | some directory => do
      match ← Disk.makeDirectories directory with
      | .error fault => pure (.error (.disk directory fault))
      | .ok () => pure (.ok ())
  match made with
  | .error error => return .error error
  | .ok () =>
    match ← Disk.writeText path config.toToml with
    | .error fault => return .error (.disk path fault)
    | .ok () => return .ok ()

end

end Carver.Config
