import SpirvInspector.Parse.Sink

/-!
# Parser

Parses a module, words least significant byte first, and drives a sink. Every malformed input is
reported by the outcome. Fewer than four bytes cannot start an instruction, so a ragged tail ends
the module like an exact end does.
-/

set_option autoImplicit false

namespace SpirvInspector

variable {σ : Type}

namespace Header

/-- The header at the start of a module, with the bytes behind it. -/
def parse (bytes : Bytes) : Except Outcome (Header × Bytes) :=
  match Cursor.nextWords (.ofBytes bytes .little) wordCount with
  | (.ok [magic, version, generator, bound, reserved], cursor) =>
    if magic = magicNumber then .ok (⟨magic, version, generator, bound, reserved⟩, cursor.rest)
    else if magic = magicNumber.swapped then .error (.ofState .endiannessUnsupported)
    else .error (.ofState .headerIncorrect)
  | (.ok _, cursor) => .error (.ofFault .headerIncomplete (.streamExpected cursor.offset))
  | (.error fault, _) => .error (.ofFault .headerIncomplete fault)

end Header

namespace Parser

/-- The end of a module. -/
def finish (sink : Sink σ) (state : σ) : Outcome × σ :=
  match sink.receive .finish state with
  | (answer, state) => (answer.outcome?.getD (.ofState .complete), state)

/-- Parses instructions from the one with this offset and index on, which starts `skip` bytes
ahead. The bytes of a frame that was parsed as a whole are skipped one by one. -/
def instructions (sink : Sink σ) (state : σ) (offset index : Nat) : Nat → Bytes → Outcome × σ
  | skip + 1, _ :: rest => instructions sink state offset index skip rest
  | 0, a :: b :: c :: d :: rest =>
    match Frame.read offset index (Word.ofStream .little a b c d) rest with
    | .error outcome => (outcome, state)
    | .ok (frame, form) =>
      match frame.instruction form with
      | .error misfit => (frame.outcomeOf misfit, state)
      | .ok inst =>
        match sink.receive (.instruction frame inst) state with
        | (.proceed, state) =>
          instructions sink state (offset + 4 * frame.wordCount) (index + 1)
            (4 * (frame.wordCount - 1)) rest
        | (.stop, state) => (.located .consumerStopRequested offset index, state)
        | (.error reason, state) =>
          ({ Outcome.located .consumerError offset index with reason }, state)
  | _, _ => finish sink state

end Parser

/-- Parses a module into a sink that is in the given state. -/
def parse (sink : Sink σ) (state : σ) (bytes : Bytes) : Outcome × σ :=
  match sink.receive .start state with
  | (answer, state) =>
    match answer.outcome? with
    | some outcome => (outcome, state)
    | none =>
      match Header.parse bytes with
      | .error outcome => (outcome, state)
      | .ok (header, rest) =>
        match sink.receive (.header header) state with
        | (answer, state) =>
          match answer.outcome? with
          | some outcome => (outcome, state)
          | none => Parser.instructions sink state Header.byteCount 1 0 rest

end SpirvInspector
