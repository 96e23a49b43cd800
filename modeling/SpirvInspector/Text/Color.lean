import SpirvInspector.Bytes

/-!
# Colors on a terminal

Escape sequences are written to a terminal only; to anything else the text goes plain.
-/

set_option autoImplicit false

namespace SpirvInspector.Text

inductive Color
  | reset
  | red
  | green
  | yellow
  | white
  | faded
  | fadedYellow
  | dark
deriving DecidableEq, Repr

namespace Color

/-- The parameters of the escape sequence that selects a color. -/
def parameters : Color → String
  | reset => "0"
  | red => "1;31"
  | green => "1;32"
  | yellow => "1;33"
  | white => "1;37"
  | faded => "38;2;120;120;120"
  | fadedYellow => "38;2;120;120;0"
  | dark => "38;2;64;64;64"

def escape (color : Color) : Bytes :=
  27 :: ascii "[" ++ ascii color.parameters ++ ascii "m"

/-- What selecting a color writes to a stream. -/
def select (color : Color) (terminal : Bool) : Bytes :=
  if terminal then color.escape else []

/-- A piece of text in a color of its own. -/
def span (color : Color) (terminal : Bool) (text : Bytes) : Bytes :=
  color.select terminal ++ text ++ reset.select terminal

end Color

/-- Which of the two output streams are terminals. -/
structure Terminals where
  output : Bool
  error : Bool
deriving DecidableEq, Repr

end SpirvInspector.Text
