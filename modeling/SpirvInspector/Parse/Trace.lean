import SpirvInspector.Parse.Parser

/-!
# Parse traces

A traced sink keeps an entry for the header and for each instruction, made before the sink itself
sees them, and passes every event on. An entry of an instruction shows the instruction and its words
as they stand in the stream.
-/

set_option autoImplicit false

namespace SpirvInspector

variable {σ : Type}

inductive TraceEntry
  | header (header : Header)
  | instruction (frame : Frame) (inst : Instruction)
deriving DecidableEq, Repr

namespace TraceEntry

def ofEvent? : Event → Option TraceEntry
  | .header h => some (header h)
  | .instruction frame inst => some (instruction frame inst)
  | _ => none

def render : TraceEntry → Bytes
  | header h =>
    ascii "version: " ++ h.versionText ++
      ascii "\ngenerator: " ++ Header.wordText h.generator ++
      ascii "\nbound: " ++ Text.decimal h.bound.toNat ++
      ascii "\nschema: " ++ Text.decimal h.reserved.toNat ++ ascii "\n"
  | instruction frame inst =>
    ascii "0x" ++ Text.hex 5 frame.offset ++ ascii ": " ++ inst.render ++ ascii "\n        " ++
      frame.words.flatMap (fun word => ascii " " ++ Text.hex 8 word.toNat) ++ ascii "\n"

end TraceEntry

/-- A state with the trace entries made on the way to it. -/
structure Traced (σ : Type) where
  state : σ
  entries : Array TraceEntry

namespace Traced

def render (traced : Traced σ) : Bytes :=
  traced.entries.toList.flatMap TraceEntry.render

end Traced

namespace Sink

/-- Traces what passes through when `tracing`, and only passes it through otherwise. -/
def traced (sink : Sink σ) (tracing : Bool) : Sink (Traced σ) where
  receive event traced :=
    match traced with
    | ⟨state, entries⟩ =>
      let entries :=
        match tracing, TraceEntry.ofEvent? event with
        | true, some entry => entries.push entry
        | _, _ => entries
      match sink.receive event state with
      | (answer, state) => (answer, ⟨state, entries⟩)

end Sink

/-- Parses at a level of verbosity; from level 2 on the parse is traced. -/
def parseVerbosely (sink : Sink σ) (state : σ) (verbosity : Int) (bytes : Bytes) :
    Outcome × Traced σ :=
  parse (sink.traced (decide (1 < verbosity))) ⟨state, #[]⟩ bytes

end SpirvInspector
