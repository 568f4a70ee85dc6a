import Carver.Data
import Carver.Plan

/-!
# Plans as documents
-/

namespace Carver

open Data (RecordForm)

/-- An entry of a plan; its lists may be left out. -/
def ModulePlan.ofData? (form : RecordForm) (value : Data) : Option ModulePlan := do
  guard (value.isRecord form 4)
  let name ← value.required 0 "name" Data.asText?
  let functions ← value.defaulted 1 "functions" Data.asTexts? []
  let structs ← value.defaulted 2 "structs" Data.asTexts? []
  let imports ← value.defaulted 3 "imports" Data.asTexts? []
  return { name, functions, structs, imports }

/-- A list of entries. -/
def Plan.ofData? (form : RecordForm) : Data → Option Plan :=
  Data.asList? (ModulePlan.ofData? form)

/-- An import table, ascending by module name; both parts may be left out. -/
def ImportTable.ofData? (form : RecordForm) (value : Data) : Option ImportTable := do
  guard (value.isRecord form 2)
  let common ← value.defaulted 0 "global" Data.asTexts? []
  let byModule ← value.defaulted 1 "modules" linesByName? []
  return { common, byModule }
where
  /-- Lists of lines by name. -/
  linesByName? : Data → Option (List (String × List String))
    | .table entries =>
      Keyed.sort <$> entries.mapM fun (name, lines) => (name, ·) <$> lines.asTexts?
    | _ => none

/-- A list of texts as a document. -/
def Data.ofTexts (texts : List String) : Data :=
  .list (texts.map .text)

/-- An entry of a plan with all its fields. -/
def ModulePlan.toData (entry : ModulePlan) : Data :=
  .table [
    ("name", .text entry.name),
    ("functions", .ofTexts entry.functions),
    ("structs", .ofTexts entry.structs),
    ("imports", .ofTexts entry.imports)]

/-- An import table with both parts. -/
def ImportTable.toData (table : ImportTable) : Data :=
  .table [
    ("global", .ofTexts table.common),
    ("modules", .table (table.byModule.map fun (name, lines) => (name, .ofTexts lines)))]

end Carver
