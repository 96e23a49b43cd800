import SpirvInspector.Diagnostic.Inquiry
import SpirvInspector.Load.Loader

/-!
# Loading with diagnostics

Loads the input of an inquiry. A failed parse becomes an error at the place where it failed, an
instruction limit that cuts the module short is no error, and a reserved header word that is not
zero becomes a warning.
-/

set_option autoImplicit false

namespace SpirvInspector

structure Inspection where
  /-- The module, or the error that ended the load. -/
  result : Except Diagnostic Module
  /-- Whether an instruction limit cut the module short. -/
  stopped : Bool
  /-- The inquiry with the warnings of the load. -/
  inquiry : Inquiry
  /-- What was written to standard output on the way. -/
  output : Bytes

namespace Inquiry

def reservedLocation : Location := ⟨16, 0, 4⟩

def reservedMessage (reserved : Word) : Bytes :=
  ascii "reserved header word is " ++ Header.wordText reserved ++ ascii " (expected 0)"

def instructionCount (m : Module) : Bytes :=
  Text.decimal m.instructions.size ++ ascii " instructions"

/-- What is left to do when a parse has completed or was stopped. -/
def accept (inquiry : Inquiry) (terminal : Bool) (loaded : Loaded) : Inspection :=
  let stopped := loaded.outcome.stopped
  let output := loaded.trace ++
    if stopped then
      inquiry.verbose terminal .nowhere (ascii "stopped after " ++ instructionCount loaded.module)
    else []
  match loaded.module.header with
  | none =>
    let error := inquiry.internal .nowhere (ascii "parse succeeded without a module header")
    ⟨.error error, stopped, inquiry, output⟩
  | some header =>
    let warned :=
      if header.reserved = 0 then inquiry
      else inquiry.warn reservedLocation (reservedMessage header.reserved)
    ⟨.ok loaded.module, stopped, warned, output ++
      inquiry.debug terminal .nowhere (ascii "loaded " ++ instructionCount loaded.module)⟩

/-- Loads the input, at most `limit` instructions of it unless that is 0. -/
def loadModule (inquiry : Inquiry) (terminal : Bool) (limit : Nat) : Inspection :=
  let loaded := ({} : Module).load limit inquiry.verbosity inquiry.input
  if loaded.outcome.stopped || loaded.outcome.succeeded then inquiry.accept terminal loaded
  else
    let location := loaded.outcome.location inquiry.input.length
    ⟨.error (inquiry.error location loaded.outcome.message), false, inquiry, loaded.trace⟩

end Inquiry

end SpirvInspector
