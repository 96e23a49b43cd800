import SpirvInspector.Module.Header
import SpirvInspector.Parse.Outcome

/-!
# Locations

A place in a module: a byte offset, the index of the instruction it falls in (0 for none), and the
number of bytes to mark. A location without an extent is nowhere in particular.
-/

set_option autoImplicit false

namespace SpirvInspector

structure Location where
  offset : UInt32
  index : UInt32
  extent : UInt32
deriving DecidableEq, Repr

namespace Location

def nowhere : Location := ⟨0, 0, 0⟩

def hasContext (location : Location) : Bool :=
  0 < location.extent

def render (location : Location) : Bytes :=
  Text.hexMarked location.offset.toNat ++
    if location.index = 0 then []
    else ascii " (instruction #" ++ Text.decimal location.index.toNat ++ ascii ")"

end Location

namespace Outcome

/-- Where an outcome is to be shown in an input of `size` bytes. A consumer error that belongs to no
instruction is nowhere. -/
def location (outcome : Outcome) (size : Nat) : Location :=
  match outcome.state with
  | .headerIncorrect | .endiannessUnsupported => ⟨0, 0, 4⟩
  | .headerIncomplete => ⟨0, 0, UInt32.ofNat (min size Header.byteCount)⟩
  | .operandError => ⟨UInt32.ofNat outcome.offset, 0, 4⟩
  | .instructionIncomplete | .wordCountZero | .opcodeUnknown | .operandExpected
  | .operandExceeded | .consumerError =>
    if outcome.index = 0 then .nowhere
    else
      ⟨UInt32.ofNat outcome.offset, UInt32.ofNat outcome.index,
        UInt32.ofNat (min 4 (size - outcome.offset))⟩
  | _ => .nowhere

end Outcome

end SpirvInspector
