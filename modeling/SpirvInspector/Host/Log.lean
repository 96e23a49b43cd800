import SpirvInspector.Text.Color
import SpirvInspector.Text.Digits

/-!
# Log messages

Messages go to standard error by level: 2 is fatal, 1 a warning, 0 normal, -1 verbose and -2 debug.
A message below the threshold is dropped.
-/

set_option autoImplicit false

namespace SpirvInspector

namespace Host.Log

def fatal : Int := 2

def warning : Int := 1

def verbose : Int := -1

def debug : Int := -2

def color? (level : Int) : Option Text.Color :=
  if fatal ≤ level then some .red
  else if level = warning then some .yellow
  else if level < 0 then some .dark
  else none

/-- A message as it is written: it always ends a line. -/
def line (text : Bytes) : Bytes :=
  if text.getLast? = some Bytes.newline then text else text ++ [Bytes.newline]

def message (threshold level : Int) (terminal : Bool) (text : Bytes) : Bytes :=
  if level < threshold then []
  else
    (color? level).elim [] (fun color => color.select terminal) ++ line text ++
      Text.Color.reset.select terminal

/-- The message about a file that was read. -/
def readText (path : Bytes) (size : Int) : Bytes :=
  path ++ ascii ": read " ++ Text.signedDecimal size ++ ascii " bytes"

end Host.Log

end SpirvInspector
