import Carver.Disk.FileTree
import Carver.Error
import Carver.Module.Declarations
import Carver.Report

/-!
# Jobs

A job applies a plan to a source file: it copies the source, splits its text, writes a file for each
module that received something, and last updates the source. A module file that cannot be written
keeps the source as it is. A dry run does all but write.
-/

namespace Carver

/-- What to read and where to write. -/
structure Job where
  source : Path
  /-- The modules are declared below the line that holds this text. -/
  anchor : String
  /-- Written behind the source's path to name the copy. -/
  backupSuffix : String
  /-- Directory of the module files, if it is not the source's. -/
  outputDirectory : Option Path
  dryRun : Bool
  deriving DecidableEq, Repr

namespace Job

/-- The path of the copy. -/
def backup (job : Job) : Path :=
  job.source.extend job.backupSuffix

/-- The directory of the module files: that of the source, if none is given. -/
def directory (job : Job) : Path :=
  match job.outputDirectory with
  | some directory => directory
  | none => job.source.parent.getD ⟨""⟩

/-- The file of a module. -/
def modulePath (job : Job) (name : String) : Path :=
  job.directory.join (name ++ ".rs")

/-- Whether the file of the module is the source. -/
def overwrites (job : Job) (name : String) : Bool :=
  decide ((job.modulePath name).Same job.source)

/-- Why a job ends without a report. -/
inductive Failure where
  | sourceMissing
  | overSource (name : String)
  | backupFailed (fault : Fault)
  | unreadable (fault : Fault)
  | patternRefused (stop : Interruption)
  deriving DecidableEq, Repr

/-- The failure as an error. -/
def Failure.error (job : Job) : Failure → Error
  | .sourceMissing => .config (.sourceMissing job.source)
  | .overSource name => .config (.overSource name job.source)
  | .backupFailed fault => .disk job.backup fault
  | .unreadable fault => .disk job.source fault
  | .patternRefused stop => .pattern stop.detail

/-- What a job did: the split, and what came of the copy, of each module and of the source. -/
structure Completion where
  split : Split
  copied : WriteStatus
  modules : List (ModuleReport × Option FileWrite)
  updated : WriteStatus
  deriving DecidableEq, Repr

/-- The names of the modules that have a file, in order. -/
def Completion.declared (done : Completion) : List String :=
  (done.modules.filter (·.2.isSome)).map (·.1.name)

/-- The report on a job. -/
def Completion.report (job : Job) (done : Completion) : Report where
  source := job.source
  backup := some job.backup
  dryRun := job.dryRun
  modules := done.modules.map (·.1)
  files :=
    ⟨job.backup, .backup, done.copied⟩ :: done.modules.filterMap (·.2)
      ++ [⟨job.source, .source, done.updated⟩]

/-- Why the source is left as it is. -/
def skipReason : String :=
  "a module file could not be written"

section

variable {m : Type → Type} [Monad m] [Disk m]

/-- Copies the source, unless the run is dry. -/
def backUp (job : Job) : m (Except Fault WriteStatus) := do
  if job.dryRun then return .ok .planned
  match ← Disk.copyFile job.source job.backup with
  | .error fault => return .error fault
  | .ok () => return .ok .written

/-- Writes a file, unless the run is dry. -/
def writeFile (job : Job) (path : Path) (text : Text) : m WriteStatus := do
  if job.dryRun then return .planned
  match ← Disk.storeText path text with
  | .error fault => return .failed fault.message
  | .ok () => return .written

/-- Writes the file of a module that received something. -/
def writeModule (job : Job) (imports : ImportTable) (entry : ModulePlan) (share : ModuleShare) :
    m (ModuleReport × Option FileWrite) := do
  let report : ModuleReport := ⟨share.name, share.outcomes, share.fragments.length, none⟩
  if share.fragments.isEmpty then return (report, none)
  let path := job.modulePath share.name
  let status ←
    job.writeFile path (Module.content share.name share.fragments imports entry.imports)
  let file := if status.isDone then some path else none
  return ({ report with file }, some ⟨path, .module, status⟩)

/-- Writes the files of the modules in order. -/
def writeModules (job : Job) (imports : ImportTable) :
    List (ModulePlan × ModuleShare) → m (List (ModuleReport × Option FileWrite))
  | [] => return []
  | (entry, share) :: rest => do
    let first ← job.writeModule imports entry share
    let others ← writeModules job imports rest
    return first :: others

/-- Writes the source with the declarations of the modules that have a file, unless one of the
files could not be written. -/
def updateSource (job : Job) (remaining : Text) (modules : List (ModuleReport × Option FileWrite)) :
    m WriteStatus :=
  if (modules.filterMap (·.2)).all (·.status.isDone) then
    let declared := (modules.filter (·.2.isSome)).map (·.1.name)
    job.writeFile job.source (Module.insertDeclarations remaining job.anchor declared)
  else return .skipped skipReason

/-- Applies the plan to the source. A pattern that is refused ends the job before any module is
written. -/
def runUnder (refusals : Refusals) (job : Job) (imports : ImportTable) (plan : Plan) :
    m (Except Failure Completion) := do
  if !(← Disk.isFile job.source) then return .error .sourceMissing
  match plan.find? fun entry => job.overwrites entry.name with
  | some entry => return .error (.overSource entry.name)
  | none =>
    match ← job.backUp with
    | .error fault => return .error (.backupFailed fault)
    | .ok copied =>
      match ← Disk.readText job.source with
      | .error fault => return .error (.unreadable fault)
      | .ok text =>
        match splitUnder refusals text plan with
        | .error stop => return .error (.patternRefused stop)
        | .ok parts =>
          let modules ← job.writeModules imports (plan.zip parts.modules)
          let updated ← job.updateSource parts.remaining modules
          return .ok { split := parts, copied, modules, updated }

/-- Applies the plan to the source, with every pattern taken. -/
def run (job : Job) (imports : ImportTable) (plan : Plan) : m (Except Failure Completion) :=
  job.runUnder (fun _ => none) imports plan

end

/-- Applies the plan to the source on a file tree, with some patterns refused. -/
def runOnUnder (refusals : Refusals) (job : Job) (imports : ImportTable) (plan : Plan)
    (tree : FileTree) : Except Failure Completion × FileTree :=
  (job.runUnder refusals imports plan : StateM FileTree _).run tree

/-- Applies the plan to the source on a file tree. -/
def runOn (job : Job) (imports : ImportTable) (plan : Plan) (tree : FileTree) :
    Except Failure Completion × FileTree :=
  (job.run imports plan : StateM FileTree _).run tree

end Job

end Carver
