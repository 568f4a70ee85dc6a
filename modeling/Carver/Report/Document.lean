import Carver.Data
import Carver.Report

/-!
# Reports as documents

The status of an item or a file is written among its other fields: the word for it under `status`,
and what else belongs to it under a name of its own. A reader also takes the number of the word.
-/

namespace Carver

/-- The word that the value gives, or the word with its number. -/
def Data.asTag? (words : List String) : Data → Option String
  | .text value => some value
  | .number value => if 0 ≤ value then words[value.toNat]? else none
  | _ => none

namespace Kind

/-- The kind with this name. -/
def ofName? : String → Option Kind
  | "function" => some .function
  | "struct" => some .struct
  | _ => none

/-- The kind that the value names. -/
def ofData? (value : Data) : Option Kind :=
  value.asChoice?.bind ofName?

end Kind

namespace Role

/-- The role with this name. -/
def ofName? : String → Option Role
  | "backup" => some .backup
  | "module" => some .module
  | "source" => some .source
  | _ => none

/-- The role that the value names. -/
def ofData? (value : Data) : Option Role :=
  value.asChoice?.bind ofName?

end Role

/-- The path that the value names. -/
def Path.ofData? (value : Data) : Option Path :=
  value.asText?.map (⟨·⟩)

namespace ItemStatus

/-- The words for what came of a request. -/
def words : List String :=
  ["extracted", "not_found", "truncated"]

/-- The fields of a status. -/
def entries : ItemStatus → List (String × Data)
  | .extracted blocks => [("status", .text "extracted"), ("blocks", .number blocks)]
  | .notFound => [("status", .text "not_found")]
  | .truncated => [("status", .text "truncated")]

/-- Reads a status from the fields of a table. -/
def ofData? (value : Data) : Option ItemStatus := do
  match ← value.required 0 "status" (Data.asTag? words) with
  | "extracted" => .extracted <$> value.required 0 "blocks" Data.asCount?
  | "not_found" => some .notFound
  | "truncated" => some .truncated
  | _ => none

end ItemStatus

namespace ItemOutcome

/-- The outcome as a table. -/
def toData (outcome : ItemOutcome) : Data :=
  .table ([("name", .text outcome.name), ("kind", .text outcome.kind.name)]
    ++ outcome.status.entries)

/-- Reads an outcome from a table. -/
def ofData? (value : Data) : Option ItemOutcome := do
  guard (value.isRecord .tablesOnly 3)
  let name ← value.required 0 "name" Data.asText?
  let kind ← value.required 0 "kind" Kind.ofData?
  let status ← ItemStatus.ofData? value
  return { name, kind, status }

end ItemOutcome

namespace WriteStatus

/-- The words for what came of a file. -/
def words : List String :=
  ["written", "planned", "failed", "skipped"]

/-- The fields of a status. -/
def entries : WriteStatus → List (String × Data)
  | .written => [("status", .text "written")]
  | .planned => [("status", .text "planned")]
  | .failed error => [("status", .text "failed"), ("error", .text error)]
  | .skipped reason => [("status", .text "skipped"), ("reason", .text reason)]

/-- Reads a status from the fields of a table. -/
def ofData? (value : Data) : Option WriteStatus := do
  match ← value.required 0 "status" (Data.asTag? words) with
  | "written" => some .written
  | "planned" => some .planned
  | "failed" => .failed <$> value.required 0 "error" Data.asText?
  | "skipped" => .skipped <$> value.required 0 "reason" Data.asText?
  | _ => none

end WriteStatus

namespace FileWrite

/-- The file as a table. -/
def toData (file : FileWrite) : Data :=
  .table ([("path", .text file.path.text), ("role", .text file.role.name)] ++ file.status.entries)

/-- Reads a file from a table. -/
def ofData? (value : Data) : Option FileWrite := do
  guard (value.isRecord .tablesOnly 3)
  let path ← value.required 0 "path" Path.ofData?
  let role ← value.required 0 "role" Role.ofData?
  let status ← WriteStatus.ofData? value
  return { path, role, status }

end FileWrite

/-- An entry for a path that may be missing; none when it is. -/
def Data.pathEntry (name : String) : Option Path → List (String × Data)
  | none => []
  | some path => [(name, .text path.text)]

namespace ModuleReport

/-- The module's part as a table. -/
def toData (entry : ModuleReport) : Data :=
  .table ([("name", .text entry.name), ("outcomes", .list (entry.outcomes.map (·.toData))),
    ("fragments", .number entry.fragments)] ++ Data.pathEntry "file" entry.file)

/-- Reads a module's part. -/
def ofData? (value : Data) : Option ModuleReport := do
  guard (value.isRecord .exactLists 4)
  let name ← value.required 0 "name" Data.asText?
  let outcomes ← value.required 1 "outcomes" (Data.asList? ItemOutcome.ofData?)
  let fragments ← value.required 2 "fragments" Data.asCount?
  let file ← value.optional 3 "file" Path.ofData?
  return { name, outcomes, fragments, file }

end ModuleReport

namespace Report

/-- The report as a table. -/
def toData (report : Report) : Data :=
  .table ([("source", .text report.source.text)] ++ Data.pathEntry "backup" report.backup
    ++ [("dryRun", .bool report.dryRun), ("modules", .list (report.modules.map (·.toData))),
      ("files", .list (report.files.map (·.toData)))])

/-- Reads a report. -/
def ofData? (value : Data) : Option Report := do
  guard (value.isRecord .exactLists 5)
  let source ← value.required 0 "source" Path.ofData?
  let backup ← value.optional 1 "backup" Path.ofData?
  let dryRun ← value.required 2 "dryRun" Data.asBool?
  let modules ← value.required 3 "modules" (Data.asList? ModuleReport.ofData?)
  let files ← value.required 4 "files" (Data.asList? FileWrite.ofData?)
  return { source, backup, dryRun, modules, files }

end Report

end Carver
