import Carver.Text.Bytes

/-!
# Coloured text

Text for a terminal carries its style between escape codes, unless styles are off.
-/

namespace Carver.Terminal

/-- The colours in use. -/
inductive Color where
  | red
  | green
  | yellow
  | blue
  | cyan
  deriving DecidableEq, Repr

/-- The code of a colour. -/
def Color.code : Color → String
  | .red => "31"
  | .green => "32"
  | .yellow => "33"
  | .blue => "34"
  | .cyan => "36"

/-- Weight and colour. -/
structure Style where
  bold : Bool
  color : Option Color
  deriving DecidableEq, Repr

/-- In bold. -/
def Style.strong : Style :=
  ⟨true, none⟩

/-- In a colour. -/
def Style.of (color : Color) : Style :=
  ⟨false, some color⟩

/-- In bold and in a colour. -/
def Style.strongly (color : Color) : Style :=
  ⟨true, some color⟩

/-- The escape code that starts the style. -/
def Style.opening (style : Style) : String :=
  let codes := (if style.bold then ["1"] else []) ++ style.color.toList.map Color.code
  "\x1b[" ++ ";".intercalate codes ++ "m"

/-- The escape code that ends any style. -/
def closing : String :=
  "\x1b[0m"

/-- Starts the style again after every escape code in the text that ends styles. -/
def restart (opening : Text) : Text → Text
  | '\x1b' :: '[' :: '0' :: 'm' :: rest => closing.toList ++ opening ++ restart opening rest
  | c :: rest => c :: restart opening rest
  | [] => []

/-- The text in the style, if styles are on. -/
def Style.paint (style : Style) (styled : Bool) (text : String) : String :=
  if styled then
    style.opening ++ String.ofList (restart style.opening.toList text.toList) ++ closing
  else text

/-- Whether a setting is there and is not switched off. -/
def isOn (value : Option String) : Option Bool :=
  value.map (· != "0")

/-- Whether styles are on: they can be forced, else ruled out, else they are for terminals. -/
def isStyled (environment : List (String × String)) (terminal : Bool) : Bool :=
  if isOn (environment.lookup "CLICOLOR_FORCE") = some true then true
  else if (environment.lookup "NO_COLOR").isSome then false
  else (isOn (environment.lookup "CLICOLOR")).getD true && terminal

end Carver.Terminal
