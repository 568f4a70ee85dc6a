import Carver.Path

/-!
# Command-line arguments

Options stand before or behind the name of the command. Those that choose the configuration and the
log level belong to all commands and may stand in either place; of two, the one behind counts. An
option is given once in each place.
-/

namespace Carver.Command

/-- How a report is printed. -/
inductive ReportFormat where
  | text
  | json
  deriving DecidableEq, Repr

/-- How a plan is printed. -/
inductive PlanFormat where
  | summary
  | toml
  | json
  deriving DecidableEq, Repr

/-- The commands with their options. -/
inductive Task where
  | split (source : Option Path) (anchor : Option String) (outputDirectory : Option Path)
      (dryRun : Bool) (format : ReportFormat)
  | plan (format : PlanFormat)
  | init (path : Path) (force : Bool)
  deriving DecidableEq, Repr

/-- A command and the options of all commands. -/
structure Invocation where
  config : Option Path
  logLevel : Option String
  task : Task
  deriving DecidableEq, Repr

/-- Why arguments give no command to run. -/
inductive Halt where
  /-- They are wrong. -/
  | usage
  /-- They ask for the version. -/
  | version
  /-- They ask for help. -/
  | help
  deriving DecidableEq, Repr

/-- What an option does. -/
inductive OptionForm where
  /-- Takes a value that is accepted. -/
  | value (accepts : String → Bool)
  /-- Is there or not. -/
  | flag
  /-- Ends the reading. -/
  | halt (reason : Halt)

/-- The options of one place: long names with their forms, and letters that end the reading. -/
structure Place where
  options : List (String × OptionForm)
  letters : List (Char × Halt)

/-- The options that were given, with their values. -/
abbrev Given := List (String × String)

/-- Splits a long option at its first equals sign. -/
def splitOption (text : List Char) : String × Option String :=
  match text.dropWhile (· != '=') with
  | [] => (String.ofList text, none)
  | _ :: value => (String.ofList (text.takeWhile (· != '=')), some (String.ofList value))

/-- Whether an argument can be the value of the option before it. -/
def isValue (argument : String) : Bool :=
  argument == "-" || argument.toList.head? != some '-'

/-- Adds an option that was not given yet. -/
def addOption (given : Given) (name value : String) : Except Halt Given :=
  if (given.lookup name).isSome then .error .usage else .ok (given ++ [(name, value)])

/-- Reads options up to the first word that is none; gives the word and what follows it. -/
def readOptions (place : Place) (given : Given) :
    List String → Except Halt (Given × Option (String × List String))
  | [] => .ok (given, none)
  | argument :: rest =>
    match argument.toList with
    | '-' :: '-' :: [] => if rest.isEmpty then .ok (given, none) else .error .usage
    | '-' :: '-' :: long =>
      let (name, attached) := splitOption long
      match place.options.lookup name, attached with
      | none, _ => .error .usage
      | some (.halt reason), none => .error reason
      | some .flag, none =>
        match addOption given name "" with
        | .error reason => .error reason
        | .ok given => readOptions place given rest
      | some (.value accepts), some value =>
        match if accepts value then addOption given name value else .error .usage with
        | .error reason => .error reason
        | .ok given => readOptions place given rest
      | some (.value accepts), none =>
        match rest with
        | [] => .error .usage
        | value :: others =>
          match
            if isValue value && accepts value then addOption given name value else .error .usage
          with
          | .error reason => .error reason
          | .ok given => readOptions place given others
      | some _, some _ => .error .usage
    | '-' :: letter :: _ => .error ((place.letters.lookup letter).getD .usage)
    | _ => .ok (given, some (argument, rest))

/-- Takes any value. -/
def anyValue : OptionForm :=
  .value fun _ => true

/-- Takes a path, which is not empty. -/
def pathValue : OptionForm :=
  .value (· != "")

/-- Takes one of the words. -/
def wordValue (words : List String) : OptionForm :=
  .value words.contains

/-- The options of all commands. -/
def commonOptions : List (String × OptionForm) :=
  [("config", pathValue), ("log-level", anyValue), ("help", .halt .help)]

/-- The place before the command. -/
def frontPlace : Place :=
  ⟨commonOptions ++ [("version", .halt .version)], [('h', .help), ('V', .version)]⟩

/-- A place behind a command with these options. -/
def backPlace (options : List (String × OptionForm)) : Place :=
  ⟨commonOptions ++ options, [('h', .help)]⟩

/-- The options of `split`. -/
def splitOptions : List (String × OptionForm) :=
  [("source", pathValue), ("anchor", anyValue), ("output-dir", pathValue), ("dry-run", .flag),
    ("format", wordValue ["text", "json"])]

/-- The options of `plan`. -/
def planOptions : List (String × OptionForm) :=
  [("format", wordValue ["summary", "toml", "json"])]

/-- The options of `init`. -/
def initOptions : List (String × OptionForm) :=
  [("path", pathValue), ("force", .flag)]

/-- Where `init` writes when no path is given. -/
def defaultInitPath : String :=
  "modsplit.toml"

/-- A path that was given. -/
def pathOf (given : Given) (name : String) : Option Path :=
  (given.lookup name).map (⟨·⟩)

/-- Whether a flag was given. -/
def hasFlag (given : Given) (name : String) : Bool :=
  (given.lookup name).isSome

/-- The options of a command and how they make up the command; none for another word. -/
def taskOf : String → Option (List (String × OptionForm) × (Given → Task))
  | "split" =>
    some (splitOptions, fun given =>
      .split (pathOf given "source") (given.lookup "anchor") (pathOf given "output-dir")
        (hasFlag given "dry-run") (if given.lookup "format" = some "json" then .json else .text))
  | "plan" =>
    some (planOptions, fun given =>
      .plan (match given.lookup "format" with
        | some "toml" => .toml
        | some "json" => .json
        | _ => .summary))
  | "init" =>
    some (initOptions, fun given =>
      .init ((pathOf given "path").getD ⟨defaultInitPath⟩) (hasFlag given "force"))
  | _ => none

/-- Why the word `help`, with these arguments behind it, ends the reading: it asks for help by
itself or in front of the name of one command. -/
def helpHalt : List String → Halt
  | [] => .help
  | [word] => if word = "help" || (taskOf word).isSome then .help else .usage
  | _ => .usage

/-- Reads all arguments. -/
def readArguments (arguments : List String) : Except Halt Invocation :=
  match readOptions frontPlace [] arguments with
  | .error reason => .error reason
  | .ok (_, none) => .error .usage
  | .ok (front, some (word, rest)) =>
    match taskOf word with
    | none => .error (if word = "help" then helpHalt rest else .usage)
    | some (options, task) =>
      match readOptions (backPlace options) [] rest with
      | .error reason => .error reason
      | .ok (_, some _) => .error .usage
      | .ok (back, none) =>
        .ok {
          config := (pathOf back "config").or (pathOf front "config")
          logLevel := (back.lookup "log-level").or (front.lookup "log-level")
          task := task back }

end Carver.Command
