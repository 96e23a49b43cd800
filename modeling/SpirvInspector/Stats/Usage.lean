import SpirvInspector.Module.Layout
import SpirvInspector.Stats.Sampler

/-!
# Opcode usage

How often each opcode occurs in a loaded module and how many operands its instructions have, result
type and result id not counted.
-/

set_option autoImplicit false

namespace SpirvInspector

structure OpcodeUsage where
  opcode : Opcode
  count : Nat
  operands : Sampler

namespace OpcodeUsage

def fresh (opcode : Opcode) : OpcodeUsage :=
  ⟨opcode, 0, {}⟩

def add (usage : OpcodeUsage) (operands : Nat) : OpcodeUsage :=
  { usage with count := usage.count + 1, operands := usage.operands.add (Float.ofNat operands) }

/-- Counts an instruction in a list that is ordered by opcode. -/
def tally (opcode : Opcode) (operands : Nat) : List OpcodeUsage → List OpcodeUsage
  | [] => [(fresh opcode).add operands]
  | usage :: usages =>
    if opcode < usage.opcode then (fresh opcode).add operands :: usage :: usages
    else if opcode = usage.opcode then usage.add operands :: usages
    else usage :: tally opcode operands usages

end OpcodeUsage

structure ModuleStats where
  words : Nat
  functions : Nat
  blocks : Nat
  operands : Sampler
  /-- Ordered by opcode. -/
  usages : List OpcodeUsage

namespace ModuleStats

def add (stats : ModuleStats) (inst : Instruction) : ModuleStats :=
  let operands := inst.operands.length
  { stats with
    operands := stats.operands.add (Float.ofNat operands)
    usages := OpcodeUsage.tally inst.opcode operands stats.usages }

/-- The statistics of a module that was read from a file of `fileBytes` bytes. -/
def ofModule (m : Module) (fileBytes : Nat) : ModuleStats :=
  let blocks := m.functions.foldl (fun total function => total + function.blocks.size) 0
  m.instructions.foldl add ⟨fileBytes / 4, m.functions.size, blocks, {}, []⟩

def instructions (stats : ModuleStats) : Nat :=
  stats.operands.size

/-- The most frequent opcodes first; among equally frequent ones the lower opcode. -/
def byFrequency (stats : ModuleStats) : List OpcodeUsage :=
  stats.usages.mergeSort fun a b => decide (b.count ≤ a.count)

end ModuleStats

end SpirvInspector
