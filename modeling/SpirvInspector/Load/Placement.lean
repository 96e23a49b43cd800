import SpirvInspector.Grammar.Opcode

/-!
# Placement of instructions

Which section of the logical layout an instruction belongs to is decided by its opcode. Only
variables, undefined values and line information depend on where they stand: outside of functions
they are global, inside they belong to a block.
-/

set_option autoImplicit false

namespace SpirvInspector

inductive Placement
  | capability
  | extension
  | extInstImport
  | memoryModel
  | entryPoint
  | executionMode
  | debug
  | decoration
  /-- A type or a constant. -/
  | global
  /-- Global outside of functions, part of a block inside. -/
  | scoped
  | function
  | functionParameter
  | functionEnd
  | label
  /-- Ends a block. -/
  | terminator
  /-- Anything else stands inside a block. -/
  | body
deriving DecidableEq, Repr

namespace Opcode

def isDebug (opcode : Opcode) : Bool :=
  opcode ∈ [opSourceContinued, opSource, opSourceExtension, opName, opMemberName, opString,
    opModuleProcessed]

def isDecoration (opcode : Opcode) : Bool :=
  opcode ∈ [opDecorate, opMemberDecorate, opDecorationGroup, opGroupDecorate,
    opGroupMemberDecorate, opDecorateId, opDecorateString, opMemberDecorateString]

def isType (opcode : Opcode) : Bool :=
  (opTypeVoid ≤ opcode && opcode ≤ opTypeForwardPointer) || opcode == opTypePipeStorage

def isConstant (opcode : Opcode) : Bool :=
  opConstantTrue ≤ opcode && opcode ≤ opSpecConstantOp

def isScoped (opcode : Opcode) : Bool :=
  opcode ∈ [opVariable, opUndef, opLine, opNoLine]

def isTerminator (opcode : Opcode) : Bool :=
  opcode ∈ [opBranch, opBranchConditional, opSwitch, opKill, opReturn, opReturnValue,
    opUnreachable]

def placement (opcode : Opcode) : Placement :=
  if opcode = opCapability then .capability
  else if opcode = opExtension then .extension
  else if opcode = opExtInstImport then .extInstImport
  else if opcode = opMemoryModel then .memoryModel
  else if opcode = opEntryPoint then .entryPoint
  else if opcode = opExecutionMode ∨ opcode = opExecutionModeId then .executionMode
  else if opcode.isDebug then .debug
  else if opcode.isDecoration then .decoration
  else if opcode.isType ∨ opcode.isConstant then .global
  else if opcode.isScoped then .scoped
  else if opcode = opFunction then .function
  else if opcode = opFunctionParameter then .functionParameter
  else if opcode = opFunctionEnd then .functionEnd
  else if opcode = opLabel then .label
  else if opcode.isTerminator then .terminator
  else .body

end Opcode

end SpirvInspector
