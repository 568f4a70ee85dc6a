import Carver.Command.Arguments
import Carver.Config.Load
import Carver.Data.Json
import Carver.Job.Trace
import Carver.Report.Summary
import Carver.Text.Quoted

/-!
# Commands

What a command prints, logs and answers, and what it does to the disk. A fatal error ends a command
with status 2, a job that could not write all its files with status 1, an environment that cannot be
read with status 101.
-/

namespace Carver.Command

/-- What a command leaves behind apart from the disk. -/
structure Outcome where
  status : Nat
  output : String
  /-- The line about a fatal error. -/
  error : Option String
  /-- How the records are written. -/
  format : LogFormat
  records : List Log.Record
  deriving DecidableEq, Repr

/-- What surrounds a command: its environment, and whether it prints to a terminal. -/
structure Setting where
  environment : List (String × String)
  terminal : Bool
  deriving DecidableEq, Repr

/-- Whether the output is styled. -/
def Setting.styled (setting : Setting) : Bool :=
  Terminal.isStyled setting.environment setting.terminal

/-- The answer to a request for the version. -/
def versionText : String :=
  "modsplit 0.1.0\n"

/-- The answer to a request for help. -/
def helpText : String :=
  "Split a monolithic Rust source file into thematic modules\n\n"
    ++ "Usage: modsplit [--config <PATH>] [--log-level <LEVEL>] <COMMAND>\n\n"
    ++ "Commands:\n"
    ++ "  split  Extract the planned definitions into module files and rewrite the source\n"
    ++ "  plan   Show the effective module plan and import table\n"
    ++ "  init   Write a configuration file holding the built-in plan\n"

/-- An outcome that prints and logs nothing else. -/
def Outcome.printed (output : String) : Outcome :=
  ⟨0, output, none, .pretty, []⟩

/-- An outcome that ends with an error before anything is logged. -/
def Outcome.fatal (message : String) : Outcome :=
  ⟨2, "", some ("error: " ++ message), .pretty, []⟩

/-- An outcome that breaks off without a word. -/
def Outcome.aborted : Outcome :=
  ⟨101, "", none, .pretty, []⟩

/-- The wording of a fatal error, which names the fault of a disk once more behind it. -/
def fatalMessage (error : Error) : String :=
  match error with
  | .disk _ fault => error.message ++ ": " ++ fault.message
  | _ => error.message

/-- The format that a word names, in any case. -/
def formatNamed? (word : String) : Option LogFormat :=
  match word.map Char.toLower with
  | "json" => some .json
  | "pretty" | "human" => some .pretty
  | _ => none

/-- The format of the records: the environment's, else the configured one. -/
def logFormat (setting : Setting) (logging : LogSettings) : LogFormat :=
  ((setting.environment.lookup "LOG_FORMAT").bind formatNamed?).getD logging.format

/-- The filter of the records, if the environment has a readable one. -/
def logFilter? (setting : Setting) (logging : LogSettings) : Option Log.Filter :=
  Log.Filter.read? logging.level ((setting.environment.lookup "RUST_LOG").getD "")

/-- The name at the left of a column. -/
def padded (width : Nat) (text : String) : String :=
  text ++ String.ofList (List.replicate (width - text.length) ' ')

/-- The line on a module of a plan. -/
def planLine (styled : Bool) (entry : ModulePlan) : String :=
  let name := (Terminal.Style.of .cyan).paint styled (padded 12 entry.name)
  let functions := toString entry.functions.length
  let structs := toString entry.structs.length
  let imports := toString entry.imports.length
  s!"  {name} {functions} functions, {structs} structs, {imports} extra imports\n"

/-- A plan for people. -/
def planSummary (styled : Bool) (config : Config) : String :=
  Terminal.Style.strong.paint styled "source" ++ " " ++ config.source.path.text ++ " (anchor: "
    ++ Text.quoted config.source.anchor ++ ")\n"
    ++ String.join (config.modules.map (planLine styled))

/-- Shows the plan. -/
def showPlan (setting : Setting) (config : Config) (format : PlanFormat) : Outcome :=
  .printed (match format with
    | .summary => planSummary setting.styled config
    | .toml => String.ofList config.toToml
    | .json => Json.pretty config.toData ++ "\n")

section

variable {m : Type → Type} [Monad m] [Disk m]

/-- Loads the configuration and puts the given log level into it. -/
def loadConfig (setting : Setting) (path : Option Path) (level : Option String) :
    m (Except Outcome Config) := do
  match ← Config.load path setting.environment with
  | .error .aborted => return .error .aborted
  | .error (.refused cause) =>
    return .error (.fatal ("Failed to load configuration: " ++ fatalMessage (.config cause)))
  | .ok config =>
    match level with
    | none => return .ok config
    | some level =>
      let config := { config with logging := { config.logging with level } }
      match config.check with
      | .error cause => return .error (.fatal (fatalMessage (.config cause)))
      | .ok () => return .ok config

/-- Loads the configuration and sets up the log; else the outcome is known. -/
def prepare (setting : Setting) (path : Option Path) (level : Option String) :
    m (Except Outcome (Config × Log.Filter)) := do
  match ← loadConfig setting path level with
  | .error outcome => return .error outcome
  | .ok config =>
    match logFilter? setting config.logging with
    | none => return .error .aborted
    | some filter => return .ok (config, filter)

/-- Runs a job and reports on it. -/
def runJob (setting : Setting) (config : Config) (filter : Log.Filter) (job : Job)
    (format : ReportFormat) : m Outcome := do
  let result ← job.run config.imports config.modules
  let records := ((.resolved :: job.events result).map (·.record)).filter filter.allows
  let logged (outcome : Outcome) : Outcome :=
    { outcome with format := logFormat setting config.logging, records }
  match result with
  | .error failure => return logged (.fatal (fatalMessage (failure.error job)))
  | .ok done =>
    let report := done.report job
    let output :=
      match format with
      | .text => report.summary setting.styled
      | .json => Json.pretty report.toData ++ "\n"
    return logged { Outcome.printed output with status := if report.isSuccess then 0 else 1 }

/-- Writes the built-in configuration, over a file that is there only when forced. -/
def writeConfig (setting : Setting) (path : Path) (force : Bool) : m Outcome := do
  if (← Disk.isThere path) && !force then
    return .fatal (path.text ++ " already exists (use --force to overwrite)")
  match ← Defaults.config.save path with
  | .error error => return .fatal (fatalMessage error)
  | .ok () =>
    let mark := (Terminal.Style.of .green).paint setting.styled "✓"
    return .printed (mark ++ " Wrote " ++ path.text ++ "\n")

/-- The job that a configuration and the options of `split` describe. -/
def jobOf (config : Config) (source : Option Path) (anchor : Option String)
    (outputDirectory : Option Path) (dryRun : Bool) : Job :=
  let job := Job.ofConfig config
  { source := source.getD job.source
    anchor := anchor.getD job.anchor
    backupSuffix := job.backupSuffix
    outputDirectory := outputDirectory.or job.outputDirectory
    dryRun }

/-- Runs a command. -/
def runInvocation (setting : Setting) (invocation : Invocation) : m Outcome := do
  match invocation.task with
  | .init path force => writeConfig setting path force
  | .plan format =>
    match ← prepare setting invocation.config invocation.logLevel with
    | .error outcome => return outcome
    | .ok (config, _) => return showPlan setting config format
  | .split source anchor outputDirectory dryRun format =>
    match ← prepare setting invocation.config invocation.logLevel with
    | .error outcome => return outcome
    | .ok (config, filter) =>
      runJob setting config filter (jobOf config source anchor outputDirectory dryRun) format

/-- Runs the command that the arguments name; none if they are wrong. -/
def run (setting : Setting) (arguments : List String) : m (Option Outcome) := do
  match readArguments arguments with
  | .error .usage => return none
  | .error .version => return some (.printed versionText)
  | .error .help => return some (.printed helpText)
  | .ok invocation => return some (← runInvocation setting invocation)

end

end Carver.Command
