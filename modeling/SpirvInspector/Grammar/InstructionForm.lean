import SpirvInspector.Grammar.OperandKind

/-!
# Instruction forms

The core instructions by group: opcode, name and logical operands in stream order. A trailing
operand may be optional or repeat; every operand that must be present comes before those.
-/

set_option autoImplicit false

namespace SpirvInspector

abbrev Opcode := UInt16

inductive Quantifier
  | one
  | zeroOrOne
  | zeroOrMore
deriving DecidableEq, Repr

structure LogicalOperand where
  kind : OperandKind
  quantifier : Quantifier
deriving DecidableEq, Repr

structure InstructionForm where
  name : String
  opcode : Opcode
  operands : List LogicalOperand
deriving DecidableEq, Repr

namespace InstructionForm

def hasResultType (form : InstructionForm) : Bool :=
  form.operands.head?.any (fun operand => operand.kind == .idResultType)

def hasResult (form : InstructionForm) : Bool :=
  form.operands.any (fun operand => operand.kind == .idResult)

def one (kind : OperandKind) : LogicalOperand := ⟨kind, .one⟩

def optional (kind : OperandKind) : LogicalOperand := ⟨kind, .zeroOrOne⟩

def many (kind : OperandKind) : LogicalOperand := ⟨kind, .zeroOrMore⟩

def type : LogicalOperand := one .idResultType

def result : LogicalOperand := one .idResult

def ref : LogicalOperand := one .idRef

def integer : LogicalOperand := one .literalInteger

def text : LogicalOperand := one .literalString

def scope : LogicalOperand := one .idScope

def semantics : LogicalOperand := one .idMemorySemantics

def miscellaneous : List InstructionForm :=
  [⟨"OpNop", 0, []⟩,
   ⟨"OpUndef", 1, [type, result]⟩,
   ⟨"OpSizeOf", 321, [type, result, ref]⟩]

def debug : List InstructionForm :=
  [⟨"OpSourceContinued", 2, [text]⟩,
   ⟨"OpSource", 3, [one .sourceLanguage, integer, optional .idRef, optional .literalString]⟩,
   ⟨"OpSourceExtension", 4, [text]⟩,
   ⟨"OpName", 5, [ref, text]⟩,
   ⟨"OpMemberName", 6, [ref, integer, text]⟩,
   ⟨"OpString", 7, [result, text]⟩,
   ⟨"OpLine", 8, [ref, integer, integer]⟩,
   ⟨"OpNoLine", 317, []⟩,
   ⟨"OpModuleProcessed", 330, [text]⟩]

def decoration : List InstructionForm :=
  [⟨"OpDecorate", 71, [ref, one .decoration]⟩,
   ⟨"OpMemberDecorate", 72, [ref, integer, one .decoration]⟩,
   ⟨"OpDecorationGroup", 73, [result]⟩,
   ⟨"OpGroupDecorate", 74, [ref, many .idRef]⟩,
   ⟨"OpGroupMemberDecorate", 75, [ref, many .pairIdRefLiteralInteger]⟩,
   ⟨"OpDecorateId", 332, [ref, one .decoration]⟩,
   ⟨"OpDecorateString", 5632, [ref, one .decoration]⟩,
   ⟨"OpMemberDecorateString", 5633, [ref, integer, one .decoration]⟩]

def extension : List InstructionForm :=
  [⟨"OpExtension", 10, [text]⟩,
   ⟨"OpExtInstImport", 11, [result, text]⟩,
   ⟨"OpExtInst", 12, [type, result, ref, one .literalExtInstInteger, many .idRef]⟩]

def modeSetting : List InstructionForm :=
  [⟨"OpMemoryModel", 14, [one .addressingModel, one .memoryModel]⟩,
   ⟨"OpEntryPoint", 15, [one .executionModel, ref, text, many .idRef]⟩,
   ⟨"OpExecutionMode", 16, [ref, one .executionMode]⟩,
   ⟨"OpExecutionModeId", 331, [ref, one .executionMode]⟩,
   ⟨"OpCapability", 17, [one .capability]⟩]

def typeDeclaration : List InstructionForm :=
  [⟨"OpTypeVoid", 19, [result]⟩,
   ⟨"OpTypeBool", 20, [result]⟩,
   ⟨"OpTypeInt", 21, [result, integer, integer]⟩,
   ⟨"OpTypeFloat", 22, [result, integer]⟩,
   ⟨"OpTypeVector", 23, [result, ref, integer]⟩,
   ⟨"OpTypeMatrix", 24, [result, ref, integer]⟩,
   ⟨"OpTypeImage", 25,
     [result, ref, one .dim, integer, integer, integer, integer, one .imageFormat,
      optional .accessQualifier]⟩,
   ⟨"OpTypeSampler", 26, [result]⟩,
   ⟨"OpTypeSampledImage", 27, [result, ref]⟩,
   ⟨"OpTypeArray", 28, [result, ref, ref]⟩,
   ⟨"OpTypeRuntimeArray", 29, [result, ref]⟩,
   ⟨"OpTypeStruct", 30, [result, many .idRef]⟩,
   ⟨"OpTypeOpaque", 31, [result, text]⟩,
   ⟨"OpTypePointer", 32, [result, one .storageClass, ref]⟩,
   ⟨"OpTypeFunction", 33, [result, ref, many .idRef]⟩,
   ⟨"OpTypeEvent", 34, [result]⟩,
   ⟨"OpTypeDeviceEvent", 35, [result]⟩,
   ⟨"OpTypeReserveId", 36, [result]⟩,
   ⟨"OpTypeQueue", 37, [result]⟩,
   ⟨"OpTypePipe", 38, [result, one .accessQualifier]⟩,
   ⟨"OpTypeForwardPointer", 39, [ref, one .storageClass]⟩,
   ⟨"OpTypePipeStorage", 322, [result]⟩]

def constantCreation : List InstructionForm :=
  [⟨"OpConstantTrue", 41, [type, result]⟩,
   ⟨"OpConstantFalse", 42, [type, result]⟩,
   ⟨"OpConstant", 43, [type, result, one .literalContextDependentNumber]⟩,
   ⟨"OpConstantComposite", 44, [type, result, many .idRef]⟩,
   ⟨"OpConstantSampler", 45,
     [type, result, one .samplerAddressingMode, integer, one .samplerFilterMode]⟩,
   ⟨"OpConstantNull", 46, [type, result]⟩,
   ⟨"OpSpecConstantTrue", 48, [type, result]⟩,
   ⟨"OpSpecConstantFalse", 49, [type, result]⟩,
   ⟨"OpSpecConstant", 50, [type, result, one .literalContextDependentNumber]⟩,
   ⟨"OpSpecConstantComposite", 51, [type, result, many .idRef]⟩,
   ⟨"OpSpecConstantOp", 52, [type, result, one .literalSpecConstantOpInteger, many .idRef]⟩]

def memory : List InstructionForm :=
  [⟨"OpVariable", 59, [type, result, one .storageClass, optional .idRef]⟩,
   ⟨"OpImageTexelPointer", 60, [type, result, ref, ref, ref]⟩,
   ⟨"OpLoad", 61, [type, result, ref, optional .memoryAccess]⟩,
   ⟨"OpStore", 62, [ref, ref, optional .memoryAccess]⟩,
   ⟨"OpCopyMemory", 63, [ref, ref, optional .memoryAccess]⟩,
   ⟨"OpCopyMemorySized", 64, [ref, ref, ref, optional .memoryAccess]⟩,
   ⟨"OpAccessChain", 65, [type, result, ref, many .idRef]⟩,
   ⟨"OpInBoundsAccessChain", 66, [type, result, ref, many .idRef]⟩,
   ⟨"OpPtrAccessChain", 67, [type, result, ref, ref, many .idRef]⟩,
   ⟨"OpArrayLength", 68, [type, result, ref, integer]⟩,
   ⟨"OpGenericPtrMemSemantics", 69, [type, result, ref]⟩,
   ⟨"OpInBoundsPtrAccessChain", 70, [type, result, ref, ref, many .idRef]⟩]

def function : List InstructionForm :=
  [⟨"OpFunction", 54, [type, result, one .functionControl, ref]⟩,
   ⟨"OpFunctionParameter", 55, [type, result]⟩,
   ⟨"OpFunctionEnd", 56, []⟩,
   ⟨"OpFunctionCall", 57, [type, result, ref, many .idRef]⟩]

def image : List InstructionForm :=
  [⟨"OpSampledImage", 86, [type, result, ref, ref]⟩,
   ⟨"OpImageSampleImplicitLod", 87, [type, result, ref, ref, optional .imageOperands]⟩,
   ⟨"OpImageSampleExplicitLod", 88, [type, result, ref, ref, one .imageOperands]⟩,
   ⟨"OpImageSampleDrefImplicitLod", 89, [type, result, ref, ref, ref, optional .imageOperands]⟩,
   ⟨"OpImageSampleDrefExplicitLod", 90, [type, result, ref, ref, ref, one .imageOperands]⟩,
   ⟨"OpImageSampleProjImplicitLod", 91, [type, result, ref, ref, optional .imageOperands]⟩,
   ⟨"OpImageSampleProjExplicitLod", 92, [type, result, ref, ref, one .imageOperands]⟩,
   ⟨"OpImageSampleProjDrefImplicitLod", 93, [type, result, ref, ref, ref, optional .imageOperands]⟩,
   ⟨"OpImageSampleProjDrefExplicitLod", 94, [type, result, ref, ref, ref, one .imageOperands]⟩,
   ⟨"OpImageFetch", 95, [type, result, ref, ref, optional .imageOperands]⟩,
   ⟨"OpImageGather", 96, [type, result, ref, ref, ref, optional .imageOperands]⟩,
   ⟨"OpImageDrefGather", 97, [type, result, ref, ref, ref, optional .imageOperands]⟩,
   ⟨"OpImageRead", 98, [type, result, ref, ref, optional .imageOperands]⟩,
   ⟨"OpImageWrite", 99, [ref, ref, ref, optional .imageOperands]⟩,
   ⟨"OpImage", 100, [type, result, ref]⟩,
   ⟨"OpImageQueryFormat", 101, [type, result, ref]⟩,
   ⟨"OpImageQueryOrder", 102, [type, result, ref]⟩,
   ⟨"OpImageQuerySizeLod", 103, [type, result, ref, ref]⟩,
   ⟨"OpImageQuerySize", 104, [type, result, ref]⟩,
   ⟨"OpImageQueryLod", 105, [type, result, ref, ref]⟩,
   ⟨"OpImageQueryLevels", 106, [type, result, ref]⟩,
   ⟨"OpImageQuerySamples", 107, [type, result, ref]⟩]

def conversion : List InstructionForm :=
  [⟨"OpConvertFToU", 109, [type, result, ref]⟩,
   ⟨"OpConvertFToS", 110, [type, result, ref]⟩,
   ⟨"OpConvertSToF", 111, [type, result, ref]⟩,
   ⟨"OpConvertUToF", 112, [type, result, ref]⟩,
   ⟨"OpUConvert", 113, [type, result, ref]⟩,
   ⟨"OpSConvert", 114, [type, result, ref]⟩,
   ⟨"OpFConvert", 115, [type, result, ref]⟩,
   ⟨"OpQuantizeToF16", 116, [type, result, ref]⟩,
   ⟨"OpConvertPtrToU", 117, [type, result, ref]⟩,
   ⟨"OpSatConvertSToU", 118, [type, result, ref]⟩,
   ⟨"OpSatConvertUToS", 119, [type, result, ref]⟩,
   ⟨"OpConvertUToPtr", 120, [type, result, ref]⟩,
   ⟨"OpPtrCastToGeneric", 121, [type, result, ref]⟩,
   ⟨"OpGenericCastToPtr", 122, [type, result, ref]⟩,
   ⟨"OpGenericCastToPtrExplicit", 123, [type, result, ref, one .storageClass]⟩,
   ⟨"OpBitcast", 124, [type, result, ref]⟩]

def composite : List InstructionForm :=
  [⟨"OpVectorExtractDynamic", 77, [type, result, ref, ref]⟩,
   ⟨"OpVectorInsertDynamic", 78, [type, result, ref, ref, ref]⟩,
   ⟨"OpVectorShuffle", 79, [type, result, ref, ref, many .literalInteger]⟩,
   ⟨"OpCompositeConstruct", 80, [type, result, many .idRef]⟩,
   ⟨"OpCompositeExtract", 81, [type, result, ref, many .literalInteger]⟩,
   ⟨"OpCompositeInsert", 82, [type, result, ref, ref, many .literalInteger]⟩,
   ⟨"OpCopyObject", 83, [type, result, ref]⟩,
   ⟨"OpTranspose", 84, [type, result, ref]⟩]

def arithmetic : List InstructionForm :=
  [⟨"OpSNegate", 126, [type, result, ref]⟩,
   ⟨"OpFNegate", 127, [type, result, ref]⟩,
   ⟨"OpIAdd", 128, [type, result, ref, ref]⟩,
   ⟨"OpFAdd", 129, [type, result, ref, ref]⟩,
   ⟨"OpISub", 130, [type, result, ref, ref]⟩,
   ⟨"OpFSub", 131, [type, result, ref, ref]⟩,
   ⟨"OpIMul", 132, [type, result, ref, ref]⟩,
   ⟨"OpFMul", 133, [type, result, ref, ref]⟩,
   ⟨"OpUDiv", 134, [type, result, ref, ref]⟩,
   ⟨"OpSDiv", 135, [type, result, ref, ref]⟩,
   ⟨"OpFDiv", 136, [type, result, ref, ref]⟩,
   ⟨"OpUMod", 137, [type, result, ref, ref]⟩,
   ⟨"OpSRem", 138, [type, result, ref, ref]⟩,
   ⟨"OpSMod", 139, [type, result, ref, ref]⟩,
   ⟨"OpFRem", 140, [type, result, ref, ref]⟩,
   ⟨"OpFMod", 141, [type, result, ref, ref]⟩,
   ⟨"OpVectorTimesScalar", 142, [type, result, ref, ref]⟩,
   ⟨"OpMatrixTimesScalar", 143, [type, result, ref, ref]⟩,
   ⟨"OpVectorTimesMatrix", 144, [type, result, ref, ref]⟩,
   ⟨"OpMatrixTimesVector", 145, [type, result, ref, ref]⟩,
   ⟨"OpMatrixTimesMatrix", 146, [type, result, ref, ref]⟩,
   ⟨"OpOuterProduct", 147, [type, result, ref, ref]⟩,
   ⟨"OpDot", 148, [type, result, ref, ref]⟩,
   ⟨"OpIAddCarry", 149, [type, result, ref, ref]⟩,
   ⟨"OpISubBorrow", 150, [type, result, ref, ref]⟩,
   ⟨"OpUMulExtended", 151, [type, result, ref, ref]⟩,
   ⟨"OpSMulExtended", 152, [type, result, ref, ref]⟩]

def relational : List InstructionForm :=
  [⟨"OpAny", 154, [type, result, ref]⟩,
   ⟨"OpAll", 155, [type, result, ref]⟩,
   ⟨"OpIsNan", 156, [type, result, ref]⟩,
   ⟨"OpIsInf", 157, [type, result, ref]⟩,
   ⟨"OpIsFinite", 158, [type, result, ref]⟩,
   ⟨"OpIsNormal", 159, [type, result, ref]⟩,
   ⟨"OpSignBitSet", 160, [type, result, ref]⟩,
   ⟨"OpLessOrGreater", 161, [type, result, ref, ref]⟩,
   ⟨"OpOrdered", 162, [type, result, ref, ref]⟩,
   ⟨"OpUnordered", 163, [type, result, ref, ref]⟩,
   ⟨"OpLogicalEqual", 164, [type, result, ref, ref]⟩,
   ⟨"OpLogicalNotEqual", 165, [type, result, ref, ref]⟩,
   ⟨"OpLogicalOr", 166, [type, result, ref, ref]⟩,
   ⟨"OpLogicalAnd", 167, [type, result, ref, ref]⟩,
   ⟨"OpLogicalNot", 168, [type, result, ref]⟩,
   ⟨"OpSelect", 169, [type, result, ref, ref, ref]⟩,
   ⟨"OpIEqual", 170, [type, result, ref, ref]⟩,
   ⟨"OpINotEqual", 171, [type, result, ref, ref]⟩,
   ⟨"OpUGreaterThan", 172, [type, result, ref, ref]⟩,
   ⟨"OpSGreaterThan", 173, [type, result, ref, ref]⟩,
   ⟨"OpUGreaterThanEqual", 174, [type, result, ref, ref]⟩,
   ⟨"OpSGreaterThanEqual", 175, [type, result, ref, ref]⟩,
   ⟨"OpULessThan", 176, [type, result, ref, ref]⟩,
   ⟨"OpSLessThan", 177, [type, result, ref, ref]⟩,
   ⟨"OpULessThanEqual", 178, [type, result, ref, ref]⟩,
   ⟨"OpSLessThanEqual", 179, [type, result, ref, ref]⟩,
   ⟨"OpFOrdEqual", 180, [type, result, ref, ref]⟩,
   ⟨"OpFUnordEqual", 181, [type, result, ref, ref]⟩,
   ⟨"OpFOrdNotEqual", 182, [type, result, ref, ref]⟩,
   ⟨"OpFUnordNotEqual", 183, [type, result, ref, ref]⟩,
   ⟨"OpFOrdLessThan", 184, [type, result, ref, ref]⟩,
   ⟨"OpFUnordLessThan", 185, [type, result, ref, ref]⟩,
   ⟨"OpFOrdGreaterThan", 186, [type, result, ref, ref]⟩,
   ⟨"OpFUnordGreaterThan", 187, [type, result, ref, ref]⟩,
   ⟨"OpFOrdLessThanEqual", 188, [type, result, ref, ref]⟩,
   ⟨"OpFUnordLessThanEqual", 189, [type, result, ref, ref]⟩,
   ⟨"OpFOrdGreaterThanEqual", 190, [type, result, ref, ref]⟩,
   ⟨"OpFUnordGreaterThanEqual", 191, [type, result, ref, ref]⟩]

def bit : List InstructionForm :=
  [⟨"OpShiftRightLogical", 194, [type, result, ref, ref]⟩,
   ⟨"OpShiftRightArithmetic", 195, [type, result, ref, ref]⟩,
   ⟨"OpShiftLeftLogical", 196, [type, result, ref, ref]⟩,
   ⟨"OpBitwiseOr", 197, [type, result, ref, ref]⟩,
   ⟨"OpBitwiseXor", 198, [type, result, ref, ref]⟩,
   ⟨"OpBitwiseAnd", 199, [type, result, ref, ref]⟩,
   ⟨"OpNot", 200, [type, result, ref]⟩,
   ⟨"OpBitFieldInsert", 201, [type, result, ref, ref, ref, ref]⟩,
   ⟨"OpBitFieldSExtract", 202, [type, result, ref, ref, ref]⟩,
   ⟨"OpBitFieldUExtract", 203, [type, result, ref, ref, ref]⟩,
   ⟨"OpBitReverse", 204, [type, result, ref]⟩,
   ⟨"OpBitCount", 205, [type, result, ref]⟩]

def derivative : List InstructionForm :=
  [⟨"OpDPdx", 207, [type, result, ref]⟩,
   ⟨"OpDPdy", 208, [type, result, ref]⟩,
   ⟨"OpFwidth", 209, [type, result, ref]⟩,
   ⟨"OpDPdxFine", 210, [type, result, ref]⟩,
   ⟨"OpDPdyFine", 211, [type, result, ref]⟩,
   ⟨"OpFwidthFine", 212, [type, result, ref]⟩,
   ⟨"OpDPdxCoarse", 213, [type, result, ref]⟩,
   ⟨"OpDPdyCoarse", 214, [type, result, ref]⟩,
   ⟨"OpFwidthCoarse", 215, [type, result, ref]⟩]

def primitive : List InstructionForm :=
  [⟨"OpEmitVertex", 218, []⟩,
   ⟨"OpEndPrimitive", 219, []⟩,
   ⟨"OpEmitStreamVertex", 220, [ref]⟩,
   ⟨"OpEndStreamPrimitive", 221, [ref]⟩]

def barrier : List InstructionForm :=
  [⟨"OpControlBarrier", 224, [scope, scope, semantics]⟩,
   ⟨"OpMemoryBarrier", 225, [scope, semantics]⟩]

def atomic : List InstructionForm :=
  [⟨"OpAtomicLoad", 227, [type, result, ref, scope, semantics]⟩,
   ⟨"OpAtomicStore", 228, [ref, scope, semantics, ref]⟩,
   ⟨"OpAtomicExchange", 229, [type, result, ref, scope, semantics, ref]⟩,
   ⟨"OpAtomicCompareExchange", 230, [type, result, ref, scope, semantics, semantics, ref, ref]⟩,
   ⟨"OpAtomicCompareExchangeWeak", 231, [type, result, ref, scope, semantics, semantics, ref, ref]⟩,
   ⟨"OpAtomicIIncrement", 232, [type, result, ref, scope, semantics]⟩,
   ⟨"OpAtomicIDecrement", 233, [type, result, ref, scope, semantics]⟩,
   ⟨"OpAtomicIAdd", 234, [type, result, ref, scope, semantics, ref]⟩,
   ⟨"OpAtomicISub", 235, [type, result, ref, scope, semantics, ref]⟩,
   ⟨"OpAtomicSMin", 236, [type, result, ref, scope, semantics, ref]⟩,
   ⟨"OpAtomicUMin", 237, [type, result, ref, scope, semantics, ref]⟩,
   ⟨"OpAtomicSMax", 238, [type, result, ref, scope, semantics, ref]⟩,
   ⟨"OpAtomicUMax", 239, [type, result, ref, scope, semantics, ref]⟩,
   ⟨"OpAtomicAnd", 240, [type, result, ref, scope, semantics, ref]⟩,
   ⟨"OpAtomicOr", 241, [type, result, ref, scope, semantics, ref]⟩,
   ⟨"OpAtomicXor", 242, [type, result, ref, scope, semantics, ref]⟩]

def controlFlow : List InstructionForm :=
  [⟨"OpPhi", 245, [type, result, many .pairIdRefIdRef]⟩,
   ⟨"OpLoopMerge", 246, [ref, ref, one .loopControl]⟩,
   ⟨"OpSelectionMerge", 247, [ref, one .selectionControl]⟩,
   ⟨"OpLabel", 248, [result]⟩,
   ⟨"OpBranch", 249, [ref]⟩,
   ⟨"OpBranchConditional", 250, [ref, ref, ref, many .literalInteger]⟩,
   ⟨"OpSwitch", 251, [ref, ref, many .pairLiteralIntegerIdRef]⟩,
   ⟨"OpKill", 252, []⟩,
   ⟨"OpReturn", 253, []⟩,
   ⟨"OpReturnValue", 254, [ref]⟩,
   ⟨"OpUnreachable", 255, []⟩,
   ⟨"OpLifetimeStart", 256, [ref, integer]⟩,
   ⟨"OpLifetimeStop", 257, [ref, integer]⟩]

/-- Every form, in table order. -/
def all : List InstructionForm :=
  miscellaneous ++ debug ++ decoration ++ extension ++ modeSetting ++ typeDeclaration ++
    constantCreation ++ memory ++ function ++ image ++ conversion ++ composite ++ arithmetic ++
    relational ++ bit ++ derivative ++ primitive ++ barrier ++ atomic ++ controlFlow

def ofOpcode? (opcode : Opcode) : Option InstructionForm :=
  all.find? (fun form => form.opcode == opcode)

theorem opcode_of_ofOpcode? {opcode : Opcode} {form : InstructionForm}
    (found : ofOpcode? opcode = some form) : form.opcode = opcode := by
  simpa using List.find?_some found

theorem mem_all_of_ofOpcode? {opcode : Opcode} {form : InstructionForm}
    (found : ofOpcode? opcode = some form) : form ∈ all :=
  List.mem_of_find?_eq_some found

end InstructionForm

namespace Opcode

def name (opcode : Opcode) : String :=
  match InstructionForm.ofOpcode? opcode with
  | some form => form.name
  | none => "Op???"

end Opcode

end SpirvInspector
