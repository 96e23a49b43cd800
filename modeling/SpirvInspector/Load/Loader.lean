import SpirvInspector.Load.Placement
import SpirvInspector.Module.Layout
import SpirvInspector.Parse.Trace

/-!
# Module loader

A sink that sorts instructions into the sections of a module and groups functions into blocks. The
function that is open, and the block that is open in it, are kept apart from the finished ones; the
loaded module shows them as the last function and its last block. An instruction that the layout
refuses is still one of the instructions of the stream.
-/

set_option autoImplicit false

namespace SpirvInspector

/-- Why an instruction, or the end of the module, does not fit the layout. -/
inductive LayoutError
  | multipleMemoryModels
  | nestedFunction
  | mismatchedFunctionEnd
  | unclosedBlock
  | unclosedFunction
  | parameterOutsideFunction
  | parameterAfterBlock
  | blockOutsideFunction
  | nestedBlock
  | outsideFunction (opcode : Opcode)
  | outsideBlock (opcode : Opcode)
deriving DecidableEq, Repr

namespace LayoutError

def message : LayoutError → Bytes
  | multipleMemoryModels => ascii "detected multiple memory models"
  | nestedFunction => ascii "found nested function"
  | mismatchedFunctionEnd => ascii "found mismatched OpFunctionEnd"
  | unclosedBlock => ascii "found unclosed basic block"
  | unclosedFunction => ascii "found unclosed function"
  | parameterOutsideFunction => ascii "found function parameter not inside function"
  | parameterAfterBlock => ascii "found function parameter after the first block"
  | blockOutsideFunction => ascii "found basic block not inside function"
  | nestedBlock => ascii "found nested basic block"
  | outsideFunction opcode => ascii opcode.name ++ ascii ": found instruction not inside function"
  | outsideBlock opcode => ascii opcode.name ++ ascii ": found instruction not inside basic block"

end LayoutError

structure OpenFunction where
  definition : Instruction
  parameters : Array Instruction
  /-- The blocks that are closed. -/
  blocks : Array Block
  /-- The block that is open. -/
  block : Option Block
deriving DecidableEq

namespace OpenFunction

def close (function : OpenFunction) (closing : Option Instruction) : Function :=
  { definition := function.definition
    parameters := function.parameters
    blocks := function.blocks ++ function.block.toArray
    closing }

end OpenFunction

structure Loader where
  /-- Stops at any instruction past this many; 0 means no limit. -/
  limit : Nat
  /-- The sections and the functions that are closed. -/
  shelf : Module
  current : Option OpenFunction

namespace Loader

/-- A loader over a module that may hold something already. -/
def ofModule (m : Module) (limit : Nat) : Loader :=
  ⟨limit, m, none⟩

/-- The module as far as it is loaded. -/
def module (loader : Loader) : Module :=
  match loader.current with
  | none => loader.shelf
  | some function =>
    { loader.shelf with functions := loader.shelf.functions.push (function.close none) }

/-- Places an instruction that belongs to no section into the open function. -/
def placeInFunction (shelf : Module) (current : Option OpenFunction) (inst : Instruction) :
    Option LayoutError × Module × Option OpenFunction :=
  match inst.opcode.placement, current with
  | .function, some function => (some .nestedFunction, shelf, some function)
  | .function, none => (none, shelf, some ⟨inst, #[], #[], none⟩)
  | .functionEnd, none => (some .mismatchedFunctionEnd, shelf, none)
  | .functionEnd, some function =>
    if function.block.isSome then (some .unclosedBlock, shelf, some function)
    else
      (none, { shelf with functions := shelf.functions.push (function.close (some inst)) }, none)
  | .functionParameter, none => (some .parameterOutsideFunction, shelf, none)
  | .functionParameter, some function =>
    if function.blocks.isEmpty && function.block.isNone then
      (none, shelf, some { function with parameters := function.parameters.push inst })
    else (some .parameterAfterBlock, shelf, some function)
  | .label, none => (some .blockOutsideFunction, shelf, none)
  | .label, some function =>
    if function.block.isSome then (some .nestedBlock, shelf, some function)
    else (none, shelf, some { function with block := some ⟨inst, #[]⟩ })
  | _, none => (some (.outsideFunction inst.opcode), shelf, none)
  | placement, some ⟨definition, parameters, blocks, block⟩ =>
    match block with
    | none =>
      (some (.outsideBlock inst.opcode), shelf, some ⟨definition, parameters, blocks, none⟩)
    | some ⟨label, body⟩ =>
      if placement = .terminator then
        (none, shelf,
          some ⟨definition, parameters, blocks.push ⟨label, body.push inst⟩, none⟩)
      else (none, shelf, some ⟨definition, parameters, blocks, some ⟨label, body.push inst⟩⟩)

/-- Places an instruction into the layout, which stays as it is when it refuses. -/
def place (shelf : Module) (current : Option OpenFunction) (inst : Instruction) :
    Option LayoutError × Module × Option OpenFunction :=
  match inst.opcode.placement with
  | .capability => (none, { shelf with capabilities := shelf.capabilities.push inst }, current)
  | .extension => (none, { shelf with extensions := shelf.extensions.push inst }, current)
  | .extInstImport => (none, { shelf with imports := shelf.imports.push inst }, current)
  | .memoryModel =>
    if shelf.memoryModel.isSome then (some .multipleMemoryModels, shelf, current)
    else (none, { shelf with memoryModel := some inst }, current)
  | .entryPoint => (none, { shelf with entryPoints := shelf.entryPoints.push inst }, current)
  | .executionMode =>
    (none, { shelf with executionModes := shelf.executionModes.push inst }, current)
  | .debug => (none, { shelf with debugs := shelf.debugs.push inst }, current)
  | .decoration => (none, { shelf with annotations := shelf.annotations.push inst }, current)
  | .global => (none, { shelf with globals := shelf.globals.push inst }, current)
  | .scoped =>
    if current.isNone then (none, { shelf with globals := shelf.globals.push inst }, current)
    else placeInFunction shelf current inst
  | _ => placeInFunction shelf current inst

/-- The first instruction past the limit stops the load, so that a module of exactly that many
instructions is complete. -/
def add (loader : Loader) (inst : Instruction) : Answer × Loader :=
  match loader with
  | ⟨limit, shelf, current⟩ =>
    if 0 < limit ∧ limit ≤ shelf.instructions.size then (.stop, ⟨limit, shelf, current⟩)
    else
      match place { shelf with instructions := shelf.instructions.push inst } current inst with
      | (refusal, shelf, current) =>
        (match refusal with
          | none => .proceed
          | some error => .error error.message,
          ⟨limit, shelf, current⟩)

/-- What is still open when the module ends. -/
def unclosed? (loader : Loader) : Option LayoutError :=
  match loader.current with
  | none => none
  | some function => if function.block.isSome then some .unclosedBlock else some .unclosedFunction

def start (loader : Loader) : Answer × Loader :=
  (.proceed, ofModule {} loader.limit)

def header (loader : Loader) (header : Header) : Answer × Loader :=
  (.proceed, { loader with shelf := { loader.shelf with header := some header } })

def finish (loader : Loader) : Answer × Loader :=
  (match loader.unclosed? with
    | none => .proceed
    | some error => .error error.message,
    loader)

def receive (event : Event) (loader : Loader) : Answer × Loader :=
  match event with
  | .start => loader.start
  | .header header => loader.header header
  | .instruction _ inst => loader.add inst
  | .finish => loader.finish

def sink : Sink Loader where
  receive := receive

end Loader

/-- A load that has ended: how, the module as far as it got, and the trace on the way. -/
structure Loaded where
  outcome : Outcome
  module : Module
  trace : Bytes

namespace Module

/-- Parses bytes into a module, whose earlier contents are lost. -/
def load (m : Module) (limit : Nat) (verbosity : Int) (bytes : Bytes) : Loaded :=
  match parseVerbosely Loader.sink (Loader.ofModule m limit) verbosity bytes with
  | (outcome, traced) => ⟨outcome, traced.state.module, traced.render⟩

/-- Loads the module that a list of words serializes to. -/
def loadWords (m : Module) (limit : Nat) (verbosity : Int) (words : List Word) : Loaded :=
  m.load limit verbosity (Word.serialize words)

end Module

end SpirvInspector
