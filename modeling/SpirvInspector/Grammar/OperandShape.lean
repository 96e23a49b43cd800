import SpirvInspector.Grammar.Enumerant
import SpirvInspector.Text.BitSet

/-!
# Operand shapes

How an operand of each kind is laid out in the stream. Kinds refer to each other through pairs and
enumerant parameters; a rank that strictly drops along every such reference shows that none of them
leads back to itself, which is what ends the recursion of the operand decoder.
-/

set_option autoImplicit false

namespace SpirvInspector

inductive OperandShape
  | id
  /-- A number of one word. -/
  | number
  /-- A number as wide as what is left of the instruction: its width depends on a result type. -/
  | contextNumber
  | string
  /-- A set of bits, each of which may require parameters. -/
  | bits (enumerants : List Enumerant)
  /-- One of several values, which may require parameters. -/
  | choice (enumerants : List Enumerant)
  | pair (first second : OperandKind)
deriving DecidableEq, Repr

namespace OperandShape

def enumerants : OperandShape → List Enumerant
  | bits enumerants => enumerants
  | choice enumerants => enumerants
  | _ => []

def members : OperandShape → List OperandKind
  | pair first second => [first, second]
  | _ => []

def isEnumerated : OperandShape → Bool
  | bits _ => true
  | choice _ => true
  | _ => false

/-- The words of one item, or 0 where the item has no width of its own. -/
def words : OperandShape → Nat
  | id => 1
  | number => 1
  | bits _ => 1
  | choice _ => 1
  | contextNumber => 0
  | string => 0
  | pair _ _ => 0

end OperandShape

namespace OperandKind

def shape : OperandKind → OperandShape
  | idResultType => .id
  | idResult => .id
  | idRef => .id
  | idScope => .id
  | idMemorySemantics => .id
  | literalInteger => .number
  | literalString => .string
  | literalContextDependentNumber => .contextNumber
  | literalExtInstInteger => .number
  | literalSpecConstantOpInteger => .number
  | pairLiteralIntegerIdRef => .pair literalInteger idRef
  | pairIdRefLiteralInteger => .pair idRef literalInteger
  | pairIdRefIdRef => .pair idRef idRef
  | imageOperands => .bits Enumerant.imageOperands
  | fpFastMathMode => .bits Enumerant.fpFastMathMode
  | selectionControl => .bits Enumerant.selectionControl
  | loopControl => .bits Enumerant.loopControl
  | functionControl => .bits Enumerant.functionControl
  | memoryAccess => .bits Enumerant.memoryAccess
  | sourceLanguage => .choice Enumerant.sourceLanguage
  | executionModel => .choice Enumerant.executionModel
  | addressingModel => .choice Enumerant.addressingModel
  | memoryModel => .choice Enumerant.memoryModel
  | executionMode => .choice Enumerant.executionMode
  | storageClass => .choice Enumerant.storageClass
  | dim => .choice Enumerant.dim
  | samplerAddressingMode => .choice Enumerant.samplerAddressingMode
  | samplerFilterMode => .choice Enumerant.samplerFilterMode
  | imageFormat => .choice Enumerant.imageFormat
  | fpRoundingMode => .choice Enumerant.fpRoundingMode
  | linkageType => .choice Enumerant.linkageType
  | accessQualifier => .choice Enumerant.accessQualifier
  | functionParameterAttribute => .choice Enumerant.functionParameterAttribute
  | decoration => .choice Enumerant.decoration
  | builtIn => .choice Enumerant.builtIn
  | capability => .choice Enumerant.capability

def enumerants (kind : OperandKind) : List Enumerant :=
  kind.shape.enumerants

/-- The enumerant of exactly this value: of a bit set that is a single bit, or zero. -/
def enumerant? (kind : OperandKind) (value : UInt32) : Option Enumerant :=
  kind.enumerants.find? (fun enumerant => enumerant.value == value)

/-- The symbols of a value, with hexadecimal for what has none. -/
def describe (kind : OperandKind) (value : UInt32) : Bytes :=
  match kind.shape with
  | .bits enumerants =>
    Text.BitSet.expand value.toUInt64
      (enumerants.map fun enumerant => ⟨enumerant.value.toUInt64, ascii enumerant.symbol⟩)
  | _ =>
    match kind.enumerant? value with
    | some enumerant => ascii enumerant.symbol
    | none => Text.hexMarked value.toNat

/-- The length of the longest chain of references that starts at a kind. -/
def rank : OperandKind → Nat
  | pairLiteralIntegerIdRef => 1
  | pairIdRefLiteralInteger => 1
  | pairIdRefIdRef => 1
  | imageOperands => 1
  | loopControl => 1
  | memoryAccess => 1
  | executionMode => 1
  | decoration => 1
  | _ => 0

theorem rank_lt_of_mem_members {kind member : OperandKind}
    (isMember : member ∈ kind.shape.members) :
    member.rank < kind.rank := by
  have every : ∀ kind ∈ all, ∀ member ∈ kind.shape.members, member.rank < kind.rank := by decide
  exact every kind kind.mem_all member isMember

theorem rank_lt_of_mem_parameters {kind parameter : OperandKind} {enumerant : Enumerant}
    (isEnumerant : enumerant ∈ kind.enumerants) (isParameter : parameter ∈ enumerant.parameters) :
    parameter.rank < kind.rank := by
  have every : ∀ kind ∈ all, ∀ enumerant ∈ kind.enumerants, ∀ parameter ∈ enumerant.parameters,
      parameter.rank < kind.rank := by decide +kernel
  exact every kind kind.mem_all enumerant isEnumerant parameter isParameter

end OperandKind

end SpirvInspector
