/-!
# Plans

A plan lists modules; each entry names the functions and structs that move into the module, in the
order in which they are taken, and import lines of its own. The import table adds lines to every
module and lines to modules by name.
-/

namespace Carver

/-- The kinds of definition that can be moved. -/
inductive Kind where
  /-- A function with a body. -/
  | function
  /-- A braced struct together with its inherent impl blocks. -/
  | struct
  deriving DecidableEq, Repr

/-- The word for the kind in messages and reports. -/
def Kind.name : Kind → String
  | .function => "function"
  | .struct => "struct"

/-- A definition asked for by kind and name. -/
structure Request where
  kind : Kind
  name : String
  deriving DecidableEq, Repr

/-- What goes into one module. -/
structure ModulePlan where
  /-- Name of the module and stem of its file. -/
  name : String
  functions : List String
  structs : List String
  /-- Import lines of this module alone. -/
  imports : List String
  deriving DecidableEq, Repr

namespace ModulePlan

/-- The functions in listed order, then the structs in listed order. -/
def requests (entry : ModulePlan) : List Request :=
  entry.functions.map (⟨.function, ·⟩) ++ entry.structs.map (⟨.struct, ·⟩)

/-- Number of definitions asked for. -/
def requested (entry : ModulePlan) : Nat :=
  entry.functions.length + entry.structs.length

end ModulePlan

/-- The modules in the order in which they are filled. -/
abbrev Plan := List ModulePlan

/-- Import lines for generated modules. -/
structure ImportTable where
  /-- Lines of every module. -/
  common : List String
  /-- Lines by module name, ascending by name. -/
  byModule : List (String × List String)
  deriving DecidableEq, Repr

namespace ImportTable

/-- A table without lines. -/
def empty : ImportTable :=
  ⟨[], []⟩

/-- The lines kept for the module's name; none for an unknown name. -/
def linesFor (table : ImportTable) (name : String) : List String :=
  (table.byModule.lookup name).getD []

end ImportTable

end Carver
