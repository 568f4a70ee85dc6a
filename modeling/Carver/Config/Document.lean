import Carver.Config
import Carver.Plan.Document
import Carver.Report.Document
import Carver.Toml.Writer

/-!
# Configurations as documents

A part that is left out takes its built-in value; a part that is there is complete by itself.
-/

namespace Carver

open Data (RecordForm)

namespace LogFormat

/-- The format with this name. -/
def ofName? : String → Option LogFormat
  | "pretty" => some .pretty
  | "json" => some .json
  | _ => none

/-- The format that the value names. -/
def ofData? (value : Data) : Option LogFormat :=
  value.asChoice?.bind ofName?

end LogFormat

namespace LogSettings

/-- The settings as a table. -/
def toData (logging : LogSettings) : Data :=
  .table [("level", .text logging.level), ("format", .text logging.format.name)]

/-- Reads the settings. -/
def ofData? (form : RecordForm) (value : Data) : Option LogSettings := do
  guard (value.isRecord form 2)
  let level ← value.required 0 "level" Data.asText?
  let format ← value.required 1 "format" LogFormat.ofData?
  return { level, format }

end LogSettings

namespace SourceSettings

/-- The settings as a table. -/
def toData (source : SourceSettings) : Data :=
  .table ([("path", .text source.path.text), ("anchor", .text source.anchor),
    ("backup_suffix", .text source.backupSuffix)]
    ++ Data.pathEntry "output_dir" source.outputDirectory)

/-- Reads the settings. -/
def ofData? (form : RecordForm) (value : Data) : Option SourceSettings := do
  guard (value.isRecord form 4)
  let path ← value.required 0 "path" Path.ofData?
  let anchor ← value.required 1 "anchor" Data.asText?
  let backupSuffix ← value.required 2 "backup_suffix" Data.asText?
  let outputDirectory ← value.defaulted 3 "output_dir" (Data.nullable Path.ofData?) none
  return { path, anchor, backupSuffix, outputDirectory }

end SourceSettings

namespace Config

/-- The entries of the configuration's table. -/
def entries (config : Config) : List (String × Data) :=
  [("source", config.source.toData), ("imports", config.imports.toData),
    ("modules", .list (config.modules.map (·.toData))), ("logging", config.logging.toData)]

/-- The configuration as a table. -/
def toData (config : Config) : Data :=
  .table config.entries

/-- Reads a configuration. -/
def ofData? (form : RecordForm) (value : Data) : Option Config := do
  guard (value.isRecord form 4)
  let source ← value.defaulted 0 "source" (SourceSettings.ofData? form) Defaults.source
  let imports ← value.defaulted 1 "imports" (ImportTable.ofData? form) Defaults.imports
  let modules ← value.defaulted 2 "modules" (Plan.ofData? form) Defaults.plan
  let logging ← value.defaulted 3 "logging" (LogSettings.ofData? form) Defaults.logging
  return { source, imports, modules, logging }

/-- The configuration as TOML text. -/
def toToml (config : Config) : Text :=
  Toml.document config.entries

end Config

end Carver
