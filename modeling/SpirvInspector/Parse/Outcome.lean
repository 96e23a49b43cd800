import SpirvInspector.Grammar.InstructionForm
import SpirvInspector.Stream.Fault

/-!
# Parse outcomes

How a parse ended, with the place it ended at. Offsets count bytes from the start of the module and
instruction indices start at 1; an index of 0 stands for no instruction.
-/

set_option autoImplicit false

namespace SpirvInspector

inductive ParseState
  | complete
  | consumerStopRequested
  | consumerError
  | headerIncomplete
  | headerIncorrect
  | endiannessUnsupported
  | instructionIncomplete
  | wordCountZero
  | opcodeUnknown
  | operandExpected
  | operandExceeded
  | operandError
  /-- A state outside the table. -/
  | unlisted (ordinal : Nat)
deriving DecidableEq, Repr

namespace ParseState

def listed : List ParseState :=
  [complete, consumerStopRequested, consumerError, headerIncomplete, headerIncorrect,
   endiannessUnsupported, instructionIncomplete, wordCountZero, opcodeUnknown, operandExpected,
   operandExceeded, operandError]

def ofOrdinal (ordinal : Nat) : ParseState :=
  listed.getD ordinal (unlisted ordinal)

def name : ParseState → String
  | complete => "COMPLETE"
  | consumerStopRequested => "CONSUMER_STOP_REQUESTED"
  | consumerError => "CONSUMER_ERROR"
  | headerIncomplete => "HEADER_INCOMPLETE"
  | headerIncorrect => "HEADER_INCORRECT"
  | endiannessUnsupported => "ENDIANNESS_UNSUPPORTED"
  | instructionIncomplete => "INSTRUCTION_INCOMPLETE"
  | wordCountZero => "WORD_COUNT_ZERO"
  | opcodeUnknown => "OPCODE_UNKNOWN"
  | operandExpected => "OPERAND_EXPECTED"
  | operandExceeded => "OPERAND_EXCEEDED"
  | operandError => "OPERAND_ERROR"
  | unlisted _ => "???"

/-- A short fixed phrase. -/
def description : ParseState → String
  | complete => "completed parsing"
  | consumerStopRequested => "stop parsing requested by consumer"
  | consumerError => "consumer error"
  | headerIncomplete => "incomplete module header"
  | headerIncorrect => "incorrect module header"
  | endiannessUnsupported => "unsupported endianness"
  | instructionIncomplete => "incomplete instruction"
  | wordCountZero => "zero word count found"
  | opcodeUnknown => "unknown opcode"
  | operandExpected => "expected more operands"
  | operandExceeded => "found extra operands"
  | operandError => "operand decoding error"
  | unlisted _ => "???"

end ParseState

structure Outcome where
  state : ParseState
  offset : Nat := 0
  index : Nat := 0
  /-- The opcode that is not in the table. -/
  opcode : Opcode := 0
  /-- The fault behind an incomplete header or an operand error. -/
  cause : Option Fault := none
  /-- What the consumer said about its error. -/
  reason : Bytes := []
deriving DecidableEq, Repr

namespace Outcome

def ofState (state : ParseState) : Outcome :=
  { state }

/-- An outcome at an instruction. -/
def located (state : ParseState) (offset index : Nat) : Outcome :=
  { state, offset, index }

/-- An outcome at the offset of the fault that caused it. -/
def ofFault (state : ParseState) (fault : Fault) : Outcome :=
  { state, offset := fault.offset, cause := some fault }

def succeeded (outcome : Outcome) : Bool :=
  outcome.state == .complete

def stopped (outcome : Outcome) : Bool :=
  outcome.state == .consumerStopRequested

/-- The instruction that an outcome is about. -/
def place (outcome : Outcome) : Bytes :=
  ascii "instruction #" ++ Text.decimal outcome.index ++ ascii " at offset " ++
    Text.decimal outcome.offset

/-- A message of one line. -/
def message (outcome : Outcome) : Bytes :=
  let description := ascii outcome.state.description
  match outcome.state with
  | .consumerError => description ++ ascii ": " ++ outcome.reason
  | .headerIncomplete | .operandError =>
    description ++
      match outcome.cause with
      | some fault => ascii ": " ++ fault.message
      | none => []
  | .instructionIncomplete => ascii "incomplete " ++ outcome.place
  | .opcodeUnknown =>
    description ++ ascii " (" ++ Text.decimal outcome.opcode.toNat ++ ascii ") for " ++
      outcome.place
  | .wordCountZero | .operandExpected | .operandExceeded =>
    description ++ ascii " for " ++ outcome.place
  | _ => description

end Outcome

end SpirvInspector
