import Carver.Path
import Carver.Split

/-!
# Reports

A report tells what came of every request and of every file of a run.
-/

namespace Carver

/-- What came of a request. -/
inductive ItemStatus where
  /-- Taken, in this many pieces. -/
  | extracted (blocks : Nat)
  | notFound
  | truncated
  deriving DecidableEq, Repr

/-- A request and what came of it. -/
structure ItemOutcome where
  name : String
  kind : Kind
  status : ItemStatus
  deriving DecidableEq, Repr

/-- Whether the definition was taken. -/
def ItemOutcome.isFound (outcome : ItemOutcome) : Bool :=
  match outcome.status with
  | .extracted _ => true
  | _ => false

/-- The outcome of a finding. -/
def Finding.outcome : Finding → ItemOutcome
  | .function name _ => ⟨name, .function, .extracted 1⟩
  | .struct name definition impls =>
    ⟨name, .struct, .extracted (definition.toList ++ impls).length⟩
  | .miss (.notFound request) => ⟨request.name, request.kind, .notFound⟩
  | .miss (.truncated request) => ⟨request.name, request.kind, .truncated⟩

namespace ModuleShare

/-- The outcomes of the module's requests, in order. -/
def outcomes (share : ModuleShare) : List ItemOutcome :=
  share.findings.map (·.outcome)

/-- Number of definitions taken. -/
def found (share : ModuleShare) : Nat :=
  (share.outcomes.filter (·.isFound)).length

/-- Number of definitions asked for. -/
def requested (share : ModuleShare) : Nat :=
  share.outcomes.length

end ModuleShare

/-- The part of a report on one module. -/
structure ModuleReport where
  name : String
  outcomes : List ItemOutcome
  /-- Number of texts that moved. -/
  fragments : Nat
  /-- The module's file, if it was or would be written. -/
  file : Option Path
  deriving DecidableEq, Repr

namespace ModuleReport

/-- Number of definitions taken. -/
def found (entry : ModuleReport) : Nat :=
  (entry.outcomes.filter (·.isFound)).length

/-- Number of definitions asked for. -/
def requested (entry : ModuleReport) : Nat :=
  entry.outcomes.length

end ModuleReport

/-- What a file is to the run. -/
inductive Role where
  | backup
  | module
  | source
  deriving DecidableEq, Repr

/-- The word for a role. -/
def Role.name : Role → String
  | .backup => "backup"
  | .module => "module"
  | .source => "source"

/-- What came of a file. -/
inductive WriteStatus where
  | written
  /-- It would have been written, but the run is dry. -/
  | planned
  | failed (error : String)
  | skipped (reason : String)
  deriving DecidableEq, Repr

/-- Whether the file was or would be written. -/
def WriteStatus.isDone : WriteStatus → Bool
  | .written | .planned => true
  | .failed _ | .skipped _ => false

/-- A file and what came of it. -/
structure FileWrite where
  path : Path
  role : Role
  status : WriteStatus
  deriving DecidableEq, Repr

/-- What came of a run. -/
structure Report where
  source : Path
  backup : Option Path
  dryRun : Bool
  modules : List ModuleReport
  files : List FileWrite
  deriving DecidableEq, Repr

namespace Report

/-- No file failed or was skipped. -/
def isSuccess (report : Report) : Bool :=
  report.files.all (·.status.isDone)

/-- Number of definitions taken. -/
def totalFound (report : Report) : Nat :=
  report.modules.foldr (fun entry total => entry.found + total) 0

/-- Number of definitions asked for. -/
def totalRequested (report : Report) : Nat :=
  report.modules.foldr (fun entry total => entry.requested + total) 0

/-- The module files that were or would be written. -/
def moduleFiles (report : Report) : List FileWrite :=
  report.files.filter fun file => file.role == .module && file.status.isDone

end Report

end Carver
