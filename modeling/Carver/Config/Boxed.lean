import Carver.Data

/-!
# Boxed values

In a configuration file a table can be a box: it stands for the value under a reserved key and for
nothing else that it holds. A second reserved key must not be used. Both keys count inside the
document alone, not in its outermost table.
-/

namespace Carver.Data

/-- The key that makes a table a box, over the value that it stands for. -/
def boxKey : String := "___figment_value_value"

/-- The key that no table may have. -/
def forbiddenKey : String := "___figment_value_id"

/-- What entries stand for. -/
def unboxTable (entries : List (String × Data)) : Data :=
  (entries.lookup boxKey).getD (.table entries)

mutual

/-- The value that is meant, boxes inside it included; none if a table has the forbidden key. -/
def unbox? : Data → Option Data
  | .list items => (unboxItems? items).map .list
  | .table entries => (unboxEntries? entries).map unboxTable
  | value => some value

/-- The elements that are meant. -/
def unboxItems? : List Data → Option (List Data)
  | [] => some []
  | item :: rest => do
    let meant ← unbox? item
    return meant :: (← unboxItems? rest)

/-- The entries that are meant. -/
def unboxEntries? : List (String × Data) → Option (List (String × Data))
  | [] => some []
  | (key, value) :: rest => do
    guard (key != forbiddenKey)
    let meant ← unbox? value
    return (key, meant) :: (← unboxEntries? rest)

end

/-- The settings that a document means. -/
def unboxEach? : Data → Option Data
  | .table entries =>
    (entries.mapM fun entry => (unbox? entry.2).map ((entry.1, ·))).map .table
  | value => some value

end Carver.Data
