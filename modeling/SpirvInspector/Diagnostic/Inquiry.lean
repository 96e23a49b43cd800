import SpirvInspector.Diagnostic.Diagnostic

/-!
# Inquiries

While an input is worked on, warnings are held back, progress messages are written at once when the
verbosity asks for them, and an error ends the work.
-/

set_option autoImplicit false

namespace SpirvInspector

/-- Work on one input: its path, its bytes, and the warnings that are held back. -/
structure Inquiry where
  verbosity : Int
  path : Bytes
  input : Bytes
  warnings : Array Diagnostic

namespace Inquiry

def begin (verbosity : Int) (path input : Bytes) : Inquiry :=
  ⟨verbosity, path, input, #[]⟩

def diagnostic (inquiry : Inquiry) (severity : Severity) (location : Location) (message : Bytes) :
    Diagnostic :=
  ⟨severity, location, message, inquiry.path, inquiry.input⟩

def error (inquiry : Inquiry) (location : Location) (message : Bytes) : Diagnostic :=
  inquiry.diagnostic .error location message

/-- An error that only a mistake in the program can cause. -/
def internal (inquiry : Inquiry) (location : Location) (message : Bytes) : Diagnostic :=
  inquiry.diagnostic .internal location (ascii "INTERNAL ERROR: " ++ message)

def warn (inquiry : Inquiry) (location : Location) (message : Bytes) : Inquiry :=
  { inquiry with
    warnings := inquiry.warnings.push (inquiry.diagnostic .warning location message) }

/-- The text of the warnings that are held back, and the inquiry without them. -/
def flush (inquiry : Inquiry) (terminal : Bool) : Bytes × Inquiry :=
  (inquiry.warnings.toList.flatMap fun warning => warning.render terminal,
    { inquiry with warnings := #[] })

/-- A message for those who want to follow the work. -/
def verbose (inquiry : Inquiry) (terminal : Bool) (location : Location) (message : Bytes) : Bytes :=
  if 0 < inquiry.verbosity then
    Palette.message ⟨.green, some .faded⟩ terminal location inquiry.path inquiry.input message
  else []

/-- A message for those who want to follow every step of the work. -/
def debug (inquiry : Inquiry) (terminal : Bool) (location : Location) (message : Bytes) : Bytes :=
  if 1 < inquiry.verbosity then
    Palette.message ⟨.fadedYellow, some .faded⟩ terminal location inquiry.path inquiry.input message
  else []

end Inquiry

end SpirvInspector
