import SpirvInspector.Module.Header
import SpirvInspector.Module.Instruction

/-!
# Logical layout of a module

The instructions of a module in stream order, and the same instructions sorted into the sections of
the logical layout, with function bodies grouped into basic blocks.
-/

set_option autoImplicit false

namespace SpirvInspector

structure Block where
  label : Instruction
  body : Array Instruction
deriving DecidableEq

structure Function where
  definition : Instruction
  parameters : Array Instruction
  blocks : Array Block
  /-- The closing instruction, absent while the function is open. -/
  closing : Option Instruction
deriving DecidableEq

namespace Function

def id (function : Function) : Option Word :=
  function.definition.resultId

end Function

structure Module where
  header : Option Header := none
  /-- Every instruction in stream order. -/
  instructions : Array Instruction := #[]
  capabilities : Array Instruction := #[]
  extensions : Array Instruction := #[]
  imports : Array Instruction := #[]
  memoryModel : Option Instruction := none
  entryPoints : Array Instruction := #[]
  executionModes : Array Instruction := #[]
  debugs : Array Instruction := #[]
  annotations : Array Instruction := #[]
  /-- Types, constants and module-scope variables. -/
  globals : Array Instruction := #[]
  functions : Array Function := #[]
deriving DecidableEq

namespace Block

/-- The instructions of a block in stream order. -/
def instructions (block : Block) : List Instruction :=
  block.label :: block.body.toList

end Block

namespace Function

/-- The instructions of a function in stream order. -/
def instructions (function : Function) : List Instruction :=
  function.definition :: function.parameters.toList ++
    function.blocks.toList.flatMap Block.instructions ++ function.closing.toList

end Function

namespace Module

/-- The sections before the functions, in the order of the layout, with their headings. -/
def sections (m : Module) : List (String × List Instruction) :=
  [("capabilities", m.capabilities.toList),
   ("extensions", m.extensions.toList),
   ("ext_inst_imports", m.imports.toList),
   ("memory model", m.memoryModel.toList),
   ("entry points", m.entryPoints.toList),
   ("execution modes", m.executionModes.toList),
   ("debug", m.debugs.toList),
   ("annotations", m.annotations.toList),
   ("types, constants and globals", m.globals.toList)]

/-- The instructions in the order of the layout. -/
def inLayout (m : Module) : List Instruction :=
  m.sections.flatMap Prod.snd ++ m.functions.toList.flatMap Function.instructions

def undescribed? (m : Module) : Option UnlistedKind :=
  m.inLayout.findSome? Instruction.undescribed?

end Module

end SpirvInspector
