import SpirvInspector.Diagnostic.Excerpt

/-!
# Diagnostics

A diagnostic carries what is needed to show it: its place, its text, and the path and the bytes of
the input it is about.
-/

set_option autoImplicit false

namespace SpirvInspector

inductive Severity
  | warning
  | error
  | internal
deriving DecidableEq, Repr

namespace Severity

def name : Severity → String
  | warning => "WARNING"
  | error => "ERROR"
  | internal => "INTERNAL"

def highlight : Severity → Text.Color
  | warning => .yellow
  | _ => .red

/-- The exit status of a program that ends with a diagnostic. -/
def exitStatus : Severity → Nat
  | internal => 2
  | _ => 1

end Severity

structure Diagnostic where
  severity : Severity
  location : Location
  message : Bytes
  path : Bytes
  input : Bytes
deriving DecidableEq

namespace Diagnostic

def render (diagnostic : Diagnostic) (terminal : Bool) : Bytes :=
  Palette.message ⟨diagnostic.severity.highlight, none⟩ terminal diagnostic.location
    diagnostic.path diagnostic.input diagnostic.message

end Diagnostic

end SpirvInspector
