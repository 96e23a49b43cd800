import SpirvInspector.Module.Header
import SpirvInspector.Parse.Frame

/-!
# Sinks

The parser hands a module to a sink, one event at a time: first the start, then the header, then
each instruction, and the finish at the end. The sink answers each event, and any answer but
`proceed` ends the parse.
-/

set_option autoImplicit false

namespace SpirvInspector

inductive Event
  | start
  | header (header : Header)
  | instruction (frame : Frame) (inst : Instruction)
  | finish
deriving DecidableEq, Repr

inductive Answer
  | proceed
  | stop
  | error (reason : Bytes)
deriving DecidableEq, Repr

namespace Answer

/-- The outcome of a parse that an answer ends. -/
def outcome? : Answer → Option Outcome
  | proceed => none
  | stop => some (.ofState .consumerStopRequested)
  | error reason => some { state := .consumerError, reason }

end Answer

structure Sink (σ : Type) where
  receive : Event → σ → Answer × σ

/-- What a recording sink is told to refuse: an event and the answer to it. -/
structure Refusal where
  refuses : Event → Bool
  answer : Answer

namespace Sink

/-- Keeps every event. It proceeds unless it is told to refuse one of them. -/
def recorder (refusal : Option Refusal) : Sink (Array Event) where
  receive event events :=
    let answer :=
      match refusal with
      | some refusal => if refusal.refuses event then refusal.answer else .proceed
      | none => .proceed
    (answer, events.push event)

end Sink

end SpirvInspector
