import SpirvInspector.CommandLine.Parse

/-!
# Options of the inspector
-/

set_option autoImplicit false

namespace SpirvInspector

namespace Tool

structure Options where
  files : Array Bytes := #[]
  dump : Bool := false
  /-- The number of instructions to decode at most; 0 means all of them. -/
  limit : Nat := 0
  stats : Bool := false
  verbosity : Int := 0
  /-- Log messages below this level are dropped. -/
  threshold : Int := 0
deriving DecidableEq, Repr

namespace Options

def quiet (options : Options) : Bool :=
  options.verbosity < 0

open CommandLine (Setter)

def setFile : Setter Options :=
  fun value options => (none, { options with files := options.files.push value })

def setDump : Setter Options :=
  .switch fun dump options => { options with dump }

def setStats : Setter Options :=
  .switch fun stats options => { options with stats }

def setLimit : Setter Options :=
  fun value options =>
    match Text.integer? value with
    | some n =>
      if n < 0 then (some (ascii "-n: malformed instruction count"), options)
      else (none, { options with limit := n.toNat })
    | none => (some (ascii "-n: malformed instruction count"), options)

def setQuiet : Setter Options :=
  fun _ options => (none, { options with verbosity := -1, threshold := 2 })

/-- Without a value the verbosity is 1. The threshold of the log follows it. -/
def setVerbosity : Setter Options :=
  fun value options =>
    let verbosity? := if value.isEmpty then some 1 else Text.integer? value
    match verbosity? with
    | some verbosity => (none, { options with verbosity, threshold := -verbosity })
    | none => (some (ascii "malformed verbosity value"), options)

end Options

def program : Bytes := ascii "spvbin"

def title : Bytes := ascii "SPIR-V Binary Inspector 0.1.0 (Jan  1 1970)"

def examples : Bytes :=
  ascii "  % spvbin kernel.spv\n" ++
    ascii "    decodes kernel.spv and prints a one line summary\n" ++
    ascii "  % spvbin -d kernel.spv\n" ++
    ascii "    dumps the module section by section\n" ++
    ascii "  % spvbin -s -n=100 kernel.spv\n" ++
    ascii "    shows opcode statistics for the first 100 instructions\n"

open CommandLine (Entry Spec)

def fileArgument : Entry Options where
  short := none
  long := none
  type := some (ascii "FILE")
  description := some (ascii "a SPIR-V binary module")
  details := some (ascii "A SPIR-V module in binary form (little-endian words).")
  attributes := { multiple := true, required := true }
  action := .set Options.setFile

def dumpOption : Entry Options where
  short := some (ascii "d")
  long := some (ascii "dump")
  type := some []
  description := some (ascii "dumps the decoded module")
  details := some
    (ascii "Prints every instruction grouped by logical layout section " ++
      ascii "(capabilities, debug, annotations, types, functions ...).")
  attributes := { flag := true }
  action := .set Options.setDump

def limitOption : Entry Options where
  short := some (ascii "n")
  long := some (ascii "max-instructions")
  type := some (ascii "INT")
  description := some (ascii "stops after this many instructions")
  details := some
    (ascii "Decoding stops (successfully) once this many instructions have been loaded.  " ++
      ascii "The default 0 decodes the whole module.")
  attributes := {}
  action := .set Options.setLimit

def statsOption : Entry Options where
  short := some (ascii "s")
  long := some (ascii "stats")
  type := some []
  description := some (ascii "shows opcode statistics")
  details := some (ascii "Lists each opcode used with its frequency and operand counts.")
  attributes := { flag := true }
  action := .set Options.setStats

def quietOption : Entry Options where
  short := some (ascii "q")
  long := some (ascii "quiet")
  type := some []
  description := some (ascii "lower verbosity")
  details := some (ascii "generate minimal output")
  attributes := { flag := true }
  action := .set Options.setQuiet

def verbosityOption : Entry Options where
  short := some (ascii "v")
  long := some (ascii "verbosity")
  type := some (ascii "INT")
  description := some (ascii "sets the output level")
  details := some
    (ascii "Level 1 reports progress; level 2 traces every decoded instruction with its raw " ++
      ascii "words.")
  attributes := { flagValue := true }
  action := .set Options.setVerbosity

def spec : Spec Options where
  title := some title
  program := program
  examples := some examples
  options := [Spec.helpEntry, dumpOption, limitOption, statsOption, quietOption, verbosityOption]
  arguments := [fileArgument]

end Tool

end SpirvInspector
