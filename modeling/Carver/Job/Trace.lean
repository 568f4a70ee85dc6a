import Carver.Job
import Carver.Log

/-!
# What a job says while it works

The events of a job, read off what it did, and the record of each event.
-/

namespace Carver.Job

/-- Something that a job tells about. -/
inductive Event where
  | resolved
  | started
  | backedUp
  | implsLocated
  | implsAlone
  | functionCut
  | structCut
  | functionTaken
  | structTaken
  | missed
  | moduleDone
  | nothingTaken
  | notWritten
  | written
  | writeFailed
  | sourceKept
  | placed (place : Module.Placement)
  | finished
  deriving DecidableEq, Repr

namespace Event

/-- The part that prepares jobs. -/
def commandTarget : String := "modsplit::cli::split"

/-- The part that runs jobs. -/
def jobTarget : String := "modsplit_services::orchestrator"

/-- The part that finds definitions. -/
def locatorTarget : String := "modsplit_lang_rust::locator"

/-- The part that cuts definitions out. -/
def extractorTarget : String := "modsplit_lang_rust::extractor"

/-- The part that declares modules. -/
def declarationsTarget : String := "modsplit_lang_rust::declarations"

/-- The record of an event. -/
def record : Event → Log.Record
  | .resolved => ⟨.debug, commandTarget, "Resolved split options", ["options"]⟩
  | .started => ⟨.info, jobTarget, "Starting split", ["source", "modules", "dry_run"]⟩
  | .backedUp => ⟨.info, jobTarget, "Backup created", ["backup"]⟩
  | .implsLocated => ⟨.debug, locatorTarget, "Located impl blocks", ["name", "count"]⟩
  | .implsAlone =>
    ⟨.warn, extractorTarget, "Struct definition not found, extracting impl blocks only",
      ["name", "impl_blocks"]⟩
  | .functionCut => ⟨.debug, extractorTarget, "Extracted function", ["name", "start", "len"]⟩
  | .structCut => ⟨.debug, extractorTarget, "Extracted struct", ["name", "blocks"]⟩
  | .functionTaken => ⟨.info, jobTarget, "Extracted function", ["module", "function"]⟩
  | .structTaken => ⟨.info, jobTarget, "Extracted struct", ["module", "struct_name", "blocks"]⟩
  | .missed => ⟨.warn, jobTarget, "Definition not extracted", ["module", "name", "error"]⟩
  | .moduleDone =>
    ⟨.info, jobTarget, "Module processed", ["module", "found", "requested", "fragments"]⟩
  | .nothingTaken => ⟨.debug, jobTarget, "Nothing extracted, no module file", ["module"]⟩
  | .notWritten => ⟨.debug, jobTarget, "Dry run, not writing", ["path", "bytes"]⟩
  | .written => ⟨.info, jobTarget, "File written", ["path", "bytes"]⟩
  | .writeFailed => ⟨.error, jobTarget, "Failed to write file", ["path", "error"]⟩
  | .sourceKept =>
    ⟨.warn, jobTarget, "A module file could not be written, leaving the source untouched",
      ["source"]⟩
  | .placed (.below _ _) =>
    ⟨.debug, declarationsTarget, "Inserting declarations after anchor", ["anchor", "offset"]⟩
  | .placed .atEnd =>
    ⟨.debug, declarationsTarget, "Anchor is on the last line, appending declarations",
      ["anchor"]⟩
  | .placed .atTop =>
    ⟨.debug, declarationsTarget, "Anchor not found, prepending declarations", ["anchor"]⟩
  | .finished =>
    ⟨.info, jobTarget, "Split complete", ["found", "module_files", "requested", "success"]⟩

end Event

/-- The events of a request. -/
def eventsOfFinding : Finding → List Event
  | .function _ _ => [.functionCut, .functionTaken]
  | .struct _ definition _ =>
    [.implsLocated] ++ (if definition.isNone then [.implsAlone] else [])
      ++ [.structCut, .structTaken]
  | .miss (.notFound ⟨.struct, _⟩) => [.implsLocated, .missed]
  | .miss _ => [.missed]

/-- The events of a module whose requests are all done. -/
def eventsOfShare (share : ModuleShare) : List Event :=
  share.findings.flatMap eventsOfFinding ++ [.moduleDone]

/-- The events of a file. -/
def eventsOfWrite : WriteStatus → List Event
  | .written => [.written]
  | .planned => [.notWritten]
  | .failed _ => [.writeFailed]
  | .skipped _ => [.sourceKept]

/-- The events of the file of a module. -/
def eventsOfModule : Option FileWrite → List Event
  | none => [.nothingTaken]
  | some file => eventsOfWrite file.status

/-- The events of the source. -/
def eventsOfSource (job : Job) (done : Completion) : List Event :=
  match done.updated with
  | .skipped _ => [.sourceKept]
  | status =>
    (if done.declared.isEmpty then []
      else [.placed (Module.placement done.split.remaining job.anchor)])
      ++ eventsOfWrite status

/-- The events of a copy that was made. -/
def eventsOfCopy (job : Job) : List Event :=
  if job.dryRun then [] else [.backedUp]

/-- The events of a job, up to the point where it failed if it did. -/
def events (job : Job) : Except Failure Completion → List Event
  | .error .sourceMissing | .error (.overSource _) => []
  | .error (.backupFailed _) => [.started]
  | .error (.unreadable _) => [.started] ++ job.eventsOfCopy
  | .error (.patternRefused stop) =>
    [.started] ++ job.eventsOfCopy ++ stop.modules.flatMap eventsOfShare
      ++ stop.findings.flatMap eventsOfFinding
  | .ok done =>
    [.started] ++ job.eventsOfCopy ++ done.split.modules.flatMap eventsOfShare
      ++ done.modules.flatMap (fun (_, file) => eventsOfModule file)
      ++ job.eventsOfSource done ++ [.finished]

end Carver.Job
