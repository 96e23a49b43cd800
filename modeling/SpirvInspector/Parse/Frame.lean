import SpirvInspector.Decode.Operands
import SpirvInspector.Parse.Outcome

/-!
# Instruction frames

The first word of an instruction holds its word count and its opcode. The words that the count
promises are the window of its operands: the instruction has to use all of them, and nothing behind
them is looked at.
-/

set_option autoImplicit false

namespace SpirvInspector

structure Frame where
  /-- The byte offset of the first word. -/
  offset : Nat
  /-- The position among the instructions, from 1. -/
  index : Nat
  first : Word
  /-- The bytes behind the first word. -/
  window : Bytes
deriving DecidableEq, Repr

namespace Frame

def wordCountOf (first : Word) : Nat :=
  first.toNat / 0x10000

def opcodeOf (first : Word) : Opcode :=
  first.toUInt16

def wordCount (frame : Frame) : Nat :=
  wordCountOf frame.first

def opcode (frame : Frame) : Opcode :=
  opcodeOf frame.first

/-- The words of the instruction as they stand in the stream. -/
def words (frame : Frame) : List Word :=
  frame.first :: Word.ofBytes .little frame.window

/-- A cursor over the operands, limited to them. -/
def cursor (frame : Frame) : Cursor :=
  ⟨frame.window, frame.offset + 4, some (frame.wordCount - 1), .little⟩

/-- The frame that starts with the word `first` in front of `rest`, with the grammar of its opcode,
or the reason why there is none. -/
def read (offset index : Nat) (first : Word) (rest : Bytes) :
    Except Outcome (Frame × InstructionForm) :=
  let wordCount := wordCountOf first
  let opcode := opcodeOf first
  if wordCount = 0 then .error (.located .wordCountZero offset index)
  else match InstructionForm.ofOpcode? opcode with
    | none => .error { Outcome.located .opcodeUnknown offset index with opcode }
    | some form =>
      if rest.hasAtLeast (4 * (wordCount - 1)) then
        .ok (⟨offset, index, first, rest.take (4 * (wordCount - 1))⟩, form)
      else .error (.located .instructionIncomplete offset index)

end Frame

/-- An instruction in the middle of being read. -/
structure Draft where
  resultType : Option Word
  resultId : Option Word
  operands : Array Operand
  cursor : Cursor

/-- Why the operands of an instruction do not fit its grammar. -/
inductive Misfit
  | expected (offset : Nat)
  | exceeded (offset : Nat)
  | fault (fault : Fault)
deriving DecidableEq, Repr

namespace Draft

/-- Reads one operand; the result type and the result id have places of their own. -/
def operand (kind : OperandKind) (draft : Draft) : Except Misfit Draft :=
  match kind with
  | .idResultType =>
    match draft.cursor.nextWord with
    | (.ok type, cursor) => .ok { draft with resultType := some type, cursor }
    | (.error fault, _) => .error (.fault fault)
  | .idResult =>
    match draft.cursor.nextWord with
    | (.ok id, cursor) => .ok { draft with resultId := some id, cursor }
    | (.error fault, _) => .error (.fault fault)
  | kind =>
    let decoded := kind.decode draft.cursor
    match decoded.fault with
    | some fault => .error (.fault fault)
    | none =>
      .ok { draft with operands := draft.operands ++ decoded.operands, cursor := decoded.cursor }

/-- Reads operands of a kind until the window is drained. Each takes a word at least, so there are
no more of them than words. -/
def repeated (kind : OperandKind) : Nat → Draft → Except Misfit Draft
  | 0, draft => .ok draft
  | words + 1, draft =>
    if draft.cursor.limitReached then .ok draft
    else match draft.operand kind with
      | .error misfit => .error misfit
      | .ok draft => repeated kind words draft

/-- Reads logical operands in order. Where the window ends, an operand that must be present is
missed, and one that may be absent ends the instruction. -/
def operandList : List LogicalOperand → Draft → Except Misfit Draft
  | [], draft => .ok draft
  | logical :: later, draft =>
    if draft.cursor.limitReached then
      if logical.quantifier = .one then .error (.expected draft.cursor.offset) else .ok draft
    else if logical.quantifier = .zeroOrMore then
      draft.repeated logical.kind (draft.cursor.limit.getD 0)
    else match draft.operand logical.kind with
      | .error misfit => .error misfit
      | .ok draft => operandList later draft

end Draft

namespace Frame

/-- The instruction in a frame, which has to fill its window exactly. -/
def instruction (frame : Frame) (form : InstructionForm) : Except Misfit Instruction :=
  match Draft.operandList form.operands ⟨none, none, #[], frame.cursor⟩ with
  | .error misfit => .error misfit
  | .ok draft =>
    if draft.cursor.limitReached then
      .ok ⟨frame.opcode, draft.resultType, draft.resultId, draft.operands.toList⟩
    else .error (.exceeded draft.cursor.offset)

/-- An operand error is located by its fault, the other misfits by the instruction. -/
def outcomeOf (frame : Frame) : Misfit → Outcome
  | .expected offset => .located .operandExpected offset frame.index
  | .exceeded offset => .located .operandExceeded offset frame.index
  | .fault fault => .ofFault .operandError fault

end Frame

end SpirvInspector
