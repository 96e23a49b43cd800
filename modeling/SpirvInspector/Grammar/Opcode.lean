import SpirvInspector.Grammar.InstructionForm

/-!
# Opcodes by name

The opcodes that the logical layout of a module tells apart.
-/

set_option autoImplicit false

namespace SpirvInspector.Opcode

def opUndef : Opcode := 1

def opSourceContinued : Opcode := 2

def opSource : Opcode := 3

def opSourceExtension : Opcode := 4

def opName : Opcode := 5

def opMemberName : Opcode := 6

def opString : Opcode := 7

def opLine : Opcode := 8

def opExtension : Opcode := 10

def opExtInstImport : Opcode := 11

def opMemoryModel : Opcode := 14

def opEntryPoint : Opcode := 15

def opExecutionMode : Opcode := 16

def opCapability : Opcode := 17

def opTypeVoid : Opcode := 19

def opTypeForwardPointer : Opcode := 39

def opConstantTrue : Opcode := 41

def opSpecConstantOp : Opcode := 52

def opFunction : Opcode := 54

def opFunctionParameter : Opcode := 55

def opFunctionEnd : Opcode := 56

def opVariable : Opcode := 59

def opDecorate : Opcode := 71

def opMemberDecorate : Opcode := 72

def opDecorationGroup : Opcode := 73

def opGroupDecorate : Opcode := 74

def opGroupMemberDecorate : Opcode := 75

def opLabel : Opcode := 248

def opBranch : Opcode := 249

def opBranchConditional : Opcode := 250

def opSwitch : Opcode := 251

def opKill : Opcode := 252

def opReturn : Opcode := 253

def opReturnValue : Opcode := 254

def opUnreachable : Opcode := 255

def opNoLine : Opcode := 317

def opTypePipeStorage : Opcode := 322

def opModuleProcessed : Opcode := 330

def opExecutionModeId : Opcode := 331

def opDecorateId : Opcode := 332

def opDecorateString : Opcode := 5632

def opMemberDecorateString : Opcode := 5633

end SpirvInspector.Opcode
