import SpirvInspector.Host.Path
import SpirvInspector.Stats.Usage
import SpirvInspector.Text.Binary64
import SpirvInspector.Text.Table

/-!
# Statistics report

Totals, then a table of the opcodes by frequency.
-/

set_option autoImplicit false

namespace SpirvInspector.ModuleStats

/-- A label and a number in two columns. -/
def total (label : String) (n : Nat) : Bytes :=
  ascii "  " ++ Text.padRight 16 Bytes.space (ascii label) ++
    Text.padLeft 8 Bytes.space (Text.decimal n)

/-- A sample that is a count, as text. -/
def countText (x : Float) : Bytes :=
  Text.decimal x.toUInt64.toNat

def table (stats : ModuleStats) : Text.Table :=
  let usages := stats.byFrequency
  let share (usage : OpcodeUsage) : Float :=
    100 * Float.ofNat usage.count / Float.ofNat stats.instructions
  [⟨ascii "opcode", false, usages.map fun usage => ascii usage.opcode.name⟩,
   ⟨ascii "id", true, usages.map fun usage => Text.decimal usage.opcode.toNat⟩,
   ⟨ascii "count", true, usages.map fun usage => Text.decimal usage.count⟩,
   ⟨ascii "%", true, usages.map fun usage => Text.fixed 1 (share usage).toBits⟩,
   ⟨ascii "opnds.avg", true, usages.map fun usage => Text.fixed 2 usage.operands.average.toBits⟩,
   ⟨ascii "opnds.max", true, usages.map fun usage => countText usage.operands.max⟩]

/-- The distribution of operands over all instructions. -/
def distribution (stats : ModuleStats) : Bytes :=
  ascii "  operands per instruction: avg " ++ Text.general stats.operands.average.toBits ++
    ascii ", stdev " ++ Text.general stats.operands.deviation.toBits ++
    ascii ", max " ++ countText stats.operands.max ++ ascii "\n"

/-- The report on a file. A module without instructions has no table. -/
def report (stats : ModuleStats) (path : Bytes) (verbosity : Int) : Bytes :=
  ascii "============== " ++ Host.fileName path ++ ascii "\n" ++
    total "words:" stats.words ++ ascii "\n" ++
    total "instructions:" stats.instructions ++ ascii "\n" ++
    total "functions:" stats.functions ++ ascii " (" ++ Text.decimal stats.blocks ++
    ascii " blocks)\n" ++
    if stats.instructions = 0 then []
    else stats.table.render (ascii "  ") ++ if 1 ≤ verbosity then stats.distribution else []

end SpirvInspector.ModuleStats
