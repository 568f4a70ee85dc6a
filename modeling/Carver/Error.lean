import Carver.Definition.Extract
import Carver.Disk

/-!
# Errors

Every error is a cause with what it is about; its wording is `Error.message`.
-/

namespace Carver

/-- Why a configuration, or a job made from one, is refused. -/
inductive ConfigError where
  | emptySource
  | emptySuffix
  | moduleName (name : String)
  /-- The file of the module would be the source itself. -/
  | overSource (name : String) (source : Path)
  | repeatedModule (name : String)
  | definitionName (name holder : String)
  | logLevel (level : String)
  | fileMissing (path : Path)
  /-- The layers do not make up a configuration. -/
  | unreadable (detail : String)
  | sourceMissing (path : Path)
  deriving DecidableEq, Repr

/-- The levels that a configuration may name. -/
def levelNames : List String :=
  ["trace", "debug", "info", "warn", "error"]

/-- The wording of a refusal. -/
def ConfigError.message : ConfigError → String
  | .emptySource => "Source path cannot be empty"
  | .emptySuffix => "Backup suffix cannot be empty, the backup would overwrite the source"
  | .moduleName name => s!"Module name '{name}' is not a valid identifier"
  | .overSource name source =>
    s!"Module '{name}' would be written over the source file " ++ source.text
  | .repeatedModule name => s!"Module '{name}' is listed more than once"
  | .definitionName name holder =>
    s!"Definition name '{name}' in module '{holder}' is not a valid identifier"
  | .logLevel level =>
    s!"Invalid log level '{level}', must be one of: " ++ ", ".intercalate levelNames
  | .fileMissing path => "Configuration file not found: " ++ path.text
  | .unreadable detail => "Failed to load configuration: " ++ detail
  | .sourceMissing path => "Source file not found: " ++ path.text

/-- Anything that can go wrong. -/
inductive Error where
  | config (cause : ConfigError)
  | miss (reason : Miss)
  | disk (path : Path) (fault : Fault)
  /-- A pattern is refused, in the words of what compiles it. -/
  | pattern (detail : String)
  deriving DecidableEq, Repr

/-- The wording of a miss. -/
def Miss.message : Miss → String
  | .notFound request =>
    "Definition not found: " ++ request.kind.name ++ " `" ++ request.name ++ "`"
  | .truncated request =>
    "Extraction truncated: " ++ request.kind.name ++ " `" ++ request.name
      ++ "` reaches end of input before its closing brace"

/-- The wording of an error. -/
def Error.message : Error → String
  | .config cause => "Configuration error: " ++ cause.message
  | .miss reason => reason.message
  | .disk path fault => "I/O error on " ++ path.text ++ ": " ++ fault.message
  | .pattern detail => "Invalid pattern: " ++ detail

/-- Misses are reported and never end a run. -/
def Error.isRecoverable : Error → Bool
  | .miss _ => true
  | _ => false

end Carver
