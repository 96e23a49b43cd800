import SpirvInspector.Grammar.OperandKind
import SpirvInspector.Text.Digits

/-!
# Decoding faults

Why a read or a decode failed, and where. The offset counts bytes from the start of the module.
-/

set_option autoImplicit false

namespace SpirvInspector

inductive FaultCode
  /-- Fewer than four bytes are left for the next word. -/
  | streamExpected
  /-- The window of the instruction is drained. -/
  | limitReached
  /-- A value, or a bit of it, that the grammar does not define. -/
  | enumerantUnknown
  /-- A literal of more than two words. -/
  | literalWidthUnsupported
  /-- A code outside the table. -/
  | unlisted (ordinal : Nat)
deriving DecidableEq, Repr

namespace FaultCode

def ofOrdinal : Nat → FaultCode
  | 0 => streamExpected
  | 1 => limitReached
  | 2 => enumerantUnknown
  | 3 => literalWidthUnsupported
  | ordinal => unlisted ordinal

def name : FaultCode → String
  | streamExpected => "STREAM_EXPECTED"
  | limitReached => "LIMIT_REACHED"
  | enumerantUnknown => "ENUMERANT_UNKNOWN"
  | literalWidthUnsupported => "LITERAL_WIDTH_UNSUPPORTED"
  | unlisted _ => "???"

/-- Whether the message of a fault names an operand kind. -/
def namesKind : FaultCode → Bool
  | enumerantUnknown => true
  | literalWidthUnsupported => true
  | _ => false

end FaultCode

structure Fault where
  code : FaultCode
  offset : Nat
  kind : Option KindTag
  /-- The unknown value or bit, or the unsupported number of words. -/
  value : UInt32
deriving DecidableEq, Repr

namespace Fault

def streamExpected (offset : Nat) : Fault :=
  ⟨.streamExpected, offset, none, 0⟩

def limitReached (offset : Nat) : Fault :=
  ⟨.limitReached, offset, none, 0⟩

def enumerantUnknown (offset : Nat) (kind : OperandKind) (value : UInt32) : Fault :=
  ⟨.enumerantUnknown, offset, some (.listed kind), value⟩

def literalWidthUnsupported (offset : Nat) (kind : OperandKind) (words : UInt32) : Fault :=
  ⟨.literalWidthUnsupported, offset, some (.listed kind), words⟩

/-- A fault from its parts. It is refused when its message would have to name an unlisted kind. -/
def make (code : FaultCode) (offset : Nat) (kind : Option KindTag) (value : UInt32) :
    Except UnlistedKind Fault :=
  match code.namesKind, kind with
  | true, some (.unlisted ordinal) => .error ⟨ordinal⟩
  | _, _ => .ok ⟨code, offset, kind, value⟩

def kindName (fault : Fault) : String :=
  match fault.kind with
  | some (.listed kind) => kind.name
  | _ => "?"

def message (fault : Fault) : Bytes :=
  match fault.code with
  | .streamExpected =>
    ascii "expected more bytes in the stream at offset " ++ Text.decimal fault.offset
  | .limitReached =>
    ascii "reached word limit at offset " ++ Text.decimal fault.offset
  | .enumerantUnknown =>
    ascii "unknown value " ++ Text.hexMarked fault.value.toNat ++ ascii " for operand kind " ++
      ascii fault.kindName ++ ascii " at offset " ++ Text.decimal fault.offset
  | .literalWidthUnsupported =>
    ascii "unsupported literal width (" ++ Text.decimal fault.value.toNat ++
      ascii " words) for operand kind " ++ ascii fault.kindName ++ ascii " at offset " ++
      Text.decimal fault.offset
  | .unlisted _ =>
    ascii "decode error at offset " ++ Text.decimal fault.offset

end Fault

namespace UnlistedKind

def message (error : UnlistedKind) : Bytes :=
  ascii "INTERNAL ERROR: operand kind " ++ Text.decimal error.ordinal.toNat ++
    ascii " has no table entry"

end UnlistedKind

end SpirvInspector
