import SpirvInspector.Grammar.InstructionForm
import SpirvInspector.Grammar.OperandShape
import SpirvInspector.Stream.Endian

/-!
# Instructions

A decoded instruction keeps its result type and result id apart from its other operands. Rendering
is total: an enumerated value whose kind is outside the table is written in hexadecimal, and
`undescribed?` finds such a kind for those who want to refuse it.
-/

set_option autoImplicit false

namespace SpirvInspector

inductive OperandValue
  | id (id : Word)
  /-- A literal of one word. -/
  | number32 (value : UInt32)
  /-- A literal of two words. -/
  | number64 (value : UInt64)
  | string (text : Bytes)
  | enumerated (value : UInt32)
deriving DecidableEq, Repr

structure Operand where
  kind : KindTag
  value : OperandValue
deriving DecidableEq, Repr

namespace Operand

def render (operand : Operand) : Bytes :=
  match operand.value with
  | .id id => ascii "%" ++ Text.decimal id.toNat
  | .number32 value => Text.decimal value.toNat
  | .number64 value => Text.decimal value.toNat
  | .string text => ascii "\"" ++ text ++ ascii "\""
  | .enumerated value =>
    match operand.kind with
    | .listed kind => kind.describe value
    | .unlisted _ => Text.hexMarked value.toNat

/-- The unlisted kind that keeps a value from being described. -/
def undescribed? (operand : Operand) : Option UnlistedKind :=
  match operand.value, operand.kind with
  | .enumerated _, .unlisted ordinal => some ⟨ordinal⟩
  | _, _ => none

end Operand

structure Instruction where
  opcode : Opcode
  resultType : Option Word
  resultId : Option Word
  operands : List Operand
deriving DecidableEq, Repr

namespace Instruction

def ofOpcode (opcode : Opcode) : Instruction :=
  ⟨opcode, none, none, []⟩

def name (inst : Instruction) : String :=
  inst.opcode.name

def idText (id : Word) : Bytes :=
  ascii "%" ++ Text.decimal id.toNat

/-- The result id and an equals sign, the name, the result type and the operands. -/
def render (inst : Instruction) : Bytes :=
  (match inst.resultId with
    | some id => idText id ++ ascii " = "
    | none => []) ++
  ascii inst.name ++
  (match inst.resultType with
    | some type => ascii " " ++ idText type
    | none => []) ++
  inst.operands.flatMap fun operand => ascii " " ++ operand.render

def undescribed? (inst : Instruction) : Option UnlistedKind :=
  inst.operands.findSome? Operand.undescribed?

end Instruction

end SpirvInspector
