import Carver.Config
import Carver.Identifier

/-!
# Checking configurations

The checks run in a fixed order and the first one that fails is reported.
-/

namespace Carver

/-- Refuses with the cause unless the condition holds. -/
def ConfigError.unless (cause : ConfigError) (holds : Bool) : Except ConfigError Unit :=
  if holds then .ok () else .error cause

/-- Checks one entry of the plan against the names of the entries before it. -/
def SourceSettings.checkEntry (source : SourceSettings) (seen : List String) (entry : ModulePlan) :
    Except ConfigError Unit := do
  (ConfigError.moduleName entry.name).unless (Identifier.isUsable entry.name)
  (ConfigError.overSource entry.name source.path).unless
    !decide ((source.modulePath entry.name).Same source.path)
  (ConfigError.repeatedModule entry.name).unless !seen.contains entry.name
  match (entry.functions ++ entry.structs).find? (!Identifier.isUsable ·) with
  | none => return ()
  | some name => throw (.definitionName name entry.name)

/-- Checks the entries of the plan in order. -/
def SourceSettings.checkPlan (source : SourceSettings) (seen : List String) :
    Plan → Except ConfigError Unit
  | [] => return ()
  | entry :: rest => do
    source.checkEntry seen entry
    source.checkPlan (entry.name :: seen) rest

/-- Checks a configuration. -/
def Config.check (config : Config) : Except ConfigError Unit := do
  ConfigError.emptySource.unless (config.source.path.text != "")
  ConfigError.emptySuffix.unless (config.source.backupSuffix != "")
  config.source.checkPlan [] config.modules
  (ConfigError.logLevel config.logging.level).unless (levelNames.contains config.logging.level)

end Carver
