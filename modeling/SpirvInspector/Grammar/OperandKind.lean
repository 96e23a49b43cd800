import SpirvInspector.Bytes

/-!
# Operand kinds

The kinds of operand that the instruction grammar names, in the order of their ordinals. Data that
was not decoded under the grammar may carry an ordinal outside the table; such a kind has a number
and no name.
-/

set_option autoImplicit false

namespace SpirvInspector

inductive OperandKind
  | idResultType
  | idResult
  | idRef
  | idScope
  | idMemorySemantics
  | literalInteger
  | literalString
  | literalContextDependentNumber
  | literalExtInstInteger
  | literalSpecConstantOpInteger
  | pairLiteralIntegerIdRef
  | pairIdRefLiteralInteger
  | pairIdRefIdRef
  | imageOperands
  | fpFastMathMode
  | selectionControl
  | loopControl
  | functionControl
  | memoryAccess
  | sourceLanguage
  | executionModel
  | addressingModel
  | memoryModel
  | executionMode
  | storageClass
  | dim
  | samplerAddressingMode
  | samplerFilterMode
  | imageFormat
  | fpRoundingMode
  | linkageType
  | accessQualifier
  | functionParameterAttribute
  | decoration
  | builtIn
  | capability
deriving DecidableEq, Repr

namespace OperandKind

def all : List OperandKind :=
  [.idResultType, .idResult, .idRef, .idScope, .idMemorySemantics, .literalInteger,
   .literalString, .literalContextDependentNumber, .literalExtInstInteger,
   .literalSpecConstantOpInteger, .pairLiteralIntegerIdRef, .pairIdRefLiteralInteger,
   .pairIdRefIdRef, .imageOperands, .fpFastMathMode, .selectionControl, .loopControl,
   .functionControl, .memoryAccess, .sourceLanguage, .executionModel, .addressingModel,
   .memoryModel, .executionMode, .storageClass, .dim, .samplerAddressingMode, .samplerFilterMode,
   .imageFormat, .fpRoundingMode, .linkageType, .accessQualifier, .functionParameterAttribute,
   .decoration, .builtIn, .capability]

theorem mem_all (kind : OperandKind) : kind ∈ all := by
  cases kind <;> decide

def ordinal (kind : OperandKind) : Nat :=
  all.idxOf kind

def ofOrdinal? (ordinal : Nat) : Option OperandKind :=
  all[ordinal]?

theorem ofOrdinal?_ordinal (kind : OperandKind) : ofOrdinal? kind.ordinal = some kind := by
  cases kind <;> rfl

def name : OperandKind → String
  | idResultType => "IdResultType"
  | idResult => "IdResult"
  | idRef => "IdRef"
  | idScope => "IdScope"
  | idMemorySemantics => "IdMemorySemantics"
  | literalInteger => "LiteralInteger"
  | literalString => "LiteralString"
  | literalContextDependentNumber => "LiteralContextDependentNumber"
  | literalExtInstInteger => "LiteralExtInstInteger"
  | literalSpecConstantOpInteger => "LiteralSpecConstantOpInteger"
  | pairLiteralIntegerIdRef => "PairLiteralIntegerIdRef"
  | pairIdRefLiteralInteger => "PairIdRefLiteralInteger"
  | pairIdRefIdRef => "PairIdRefIdRef"
  | imageOperands => "ImageOperands"
  | fpFastMathMode => "FPFastMathMode"
  | selectionControl => "SelectionControl"
  | loopControl => "LoopControl"
  | functionControl => "FunctionControl"
  | memoryAccess => "MemoryAccess"
  | sourceLanguage => "SourceLanguage"
  | executionModel => "ExecutionModel"
  | addressingModel => "AddressingModel"
  | memoryModel => "MemoryModel"
  | executionMode => "ExecutionMode"
  | storageClass => "StorageClass"
  | dim => "Dim"
  | samplerAddressingMode => "SamplerAddressingMode"
  | samplerFilterMode => "SamplerFilterMode"
  | imageFormat => "ImageFormat"
  | fpRoundingMode => "FPRoundingMode"
  | linkageType => "LinkageType"
  | accessQualifier => "AccessQualifier"
  | functionParameterAttribute => "FunctionParameterAttribute"
  | decoration => "Decoration"
  | builtIn => "BuiltIn"
  | capability => "Capability"

end OperandKind

/-- A kind as data carries it: one of the table, or an ordinal that the table does not have. -/
inductive KindTag
  | listed (kind : OperandKind)
  | unlisted (ordinal : UInt16)
deriving DecidableEq, Repr

/-- The error of asking the table about a kind that it does not have. -/
structure UnlistedKind where
  ordinal : UInt16
deriving DecidableEq, Repr

namespace KindTag

def ofOrdinal (ordinal : UInt16) : KindTag :=
  match OperandKind.ofOrdinal? ordinal.toNat with
  | some kind => listed kind
  | none => unlisted ordinal

def kind : KindTag → Except UnlistedKind OperandKind
  | listed kind => .ok kind
  | unlisted ordinal => .error ⟨ordinal⟩

end KindTag

end SpirvInspector
