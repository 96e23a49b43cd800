import SpirvInspector.Proofs.Decode.Confinement
import SpirvInspector.Proofs.Parse.Scan

/-!
# Parsing further on

The instructions of a byte string do not depend on where the bytes stand in a module. Behind other
instructions they are read as they would be read behind the header, and only their offsets and
indices, and those of the outcome, move along.
-/

set_option autoImplicit false

namespace SpirvInspector

def Misfit.relocate (distance : Nat) : Misfit → Misfit
  | expected offset => expected (offset + distance)
  | exceeded offset => exceeded (offset + distance)
  | fault cause => fault (cause.relocate distance)

namespace Draft

def relocate (distance : Nat) (draft : Draft) : Draft :=
  { draft with cursor := draft.cursor.relocate distance }

/-- What comes of reading operands further on. -/
def relocateResult (distance : Nat) : Except Misfit Draft → Except Misfit Draft
  | .ok draft => .ok (draft.relocate distance)
  | .error misfit => .error (misfit.relocate distance)

variable {distance : Nat}

theorem operand_relocate (kind : OperandKind) (draft : Draft) :
    (draft.relocate distance).operand kind = relocateResult distance (draft.operand kind) := by
  have word : (draft.relocate distance).cursor.nextWord = _ :=
    draft.cursor.nextWord_relocate distance
  have decoded : kind.decode (draft.relocate distance).cursor = _ :=
    kind.decode_relocate draft.cursor
  unfold operand
  split
  · rw [word]
    rcases draft.cursor.nextWord with ⟨_ | _, behind⟩ <;> rfl
  · rw [word]
    rcases draft.cursor.nextWord with ⟨_ | _, behind⟩ <;> rfl
  · rw [decoded]
    rcases OperandKind.decode _ draft.cursor with ⟨operands, behind, _ | fault⟩ <;> rfl

/-- The loop over logical operands goes the same way further on. -/
theorem Runs.relocate {logicals : List LogicalOperand} {draft : Draft}
    {result : Except Misfit Draft} (runs : Runs logicals draft result) (distance : Nat) :
    Runs logicals (draft.relocate distance) (relocateResult distance result) := by
  have moved {kind : OperandKind} {draft : Draft} {read : Except Misfit Draft}
      (isRead : draft.operand kind = read) :
      (draft.relocate distance).operand kind = relocateResult distance read := by
    rw [operand_relocate, isRead]
  induction runs with
  | done => exact .done
  | missing drained required => exact .missing drained required
  | absent drained optional => exact .absent drained optional
  | fault remains failed => exact .fault remains (moved failed)
  | once remains single read _ inductionHypothesis =>
    exact .once remains single (moved read) inductionHypothesis
  | again remains repeats read _ inductionHypothesis =>
    exact .again remains repeats (moved read) inductionHypothesis

end Draft

namespace Outcome

/-- The outcome of the same bytes, `distance` bytes and `count` instructions further on. An index of
zero stands for no instruction, and stays. -/
def relocate (distance count : Nat) (outcome : Outcome) : Outcome :=
  { outcome with
    offset := outcome.offset + distance
    index := if outcome.index = 0 then 0 else outcome.index + count
    cause := outcome.cause.map (Fault.relocate distance) }

theorem located_relocate (state : ParseState) (offset : Nat) {index : Nat} (numbered : 0 < index)
    (distance count : Nat) :
    (located state offset index).relocate distance count =
      located state (offset + distance) (index + count) := by
  simp [located, relocate, Nat.ne_of_gt numbered]

end Outcome

namespace Frame

def relocate (distance count : Nat) (frame : Frame) : Frame :=
  { frame with
    offset := frame.offset + distance
    index := frame.index + count }

variable {frame : Frame} {distance count : Nat}

theorem cursor_relocate (whole : frame.Whole) :
    (frame.relocate distance count).cursor = frame.cursor.relocate distance := by
  have window : frame.window.take (4 * (frame.wordCount - 1)) = frame.window := by
    rw [← whole.window, List.take_length]
  have offset : frame.offset + distance + 4 = frame.offset + 4 + distance := by omega
  unfold cursor Cursor.relocate Cursor.reach
  dsimp only
  rw [window, ← offset]
  rfl

theorem instruction_relocate (whole : frame.Whole) (form : InstructionForm) :
    (frame.relocate distance count).instruction form =
      (frame.instruction form).mapError (Misfit.relocate distance) := by
  have wholeToo : (frame.relocate distance count).Whole := ⟨whole.positive, whole.window⟩
  have runs := (Draft.operandList_runs form.operands
    (show frame.draft.cursor.Windowed from whole.windowed)).relocate distance
  have moved : frame.draft.relocate distance = (frame.relocate distance count).draft := by
    unfold draft
    rw [cursor_relocate whole]
    rfl
  rw [moved] at runs
  have read : Draft.operandList form.operands
      ⟨none, none, #[], (frame.relocate distance count).cursor⟩ =
        Draft.relocateResult distance
          (Draft.operandList form.operands ⟨none, none, #[], frame.cursor⟩) :=
    runs.operandList_eq wholeToo.windowed
  unfold instruction
  rw [read]
  cases Draft.operandList form.operands ⟨none, none, #[], frame.cursor⟩ with
  | error misfit => rfl
  | ok draft =>
    have reached : (draft.relocate distance).cursor.limitReached = draft.cursor.limitReached := rfl
    dsimp only [Draft.relocateResult]
    rw [reached]
    split <;> rfl

theorem outcomeOf_relocate (numbered : 0 < frame.index) (misfit : Misfit) :
    (frame.relocate distance count).outcomeOf (misfit.relocate distance) =
      (frame.outcomeOf misfit).relocate distance count := by
  cases misfit with
  | expected offset => exact (Outcome.located_relocate _ _ numbered _ _).symm
  | exceeded offset => exact (Outcome.located_relocate _ _ numbered _ _).symm
  | fault fault => rfl

theorem read_relocate {offset index : Nat} (numbered : 0 < index) (first : Word) (rest : Bytes) :
    read (offset + distance) (index + count) first rest =
      match read offset index first rest with
      | .error outcome => .error (outcome.relocate distance count)
      | .ok (frame, form) => .ok (frame.relocate distance count, form) := by
  dsimp only [read]
  by_cases isZero : wordCountOf first = 0
  · rw [if_pos isZero, if_pos isZero]
    exact congrArg Except.error (Outcome.located_relocate _ _ numbered _ _).symm
  · rw [if_neg isZero, if_neg isZero]
    cases InstructionForm.ofOpcode? (opcodeOf first) with
    | none => simp [Outcome.located, Outcome.relocate, Nat.ne_of_gt numbered]
    | some form =>
      dsimp only
      split
      · rfl
      · exact congrArg Except.error (Outcome.located_relocate _ _ numbered _ _).symm

end Frame

namespace Framed

def relocate (distance count : Nat) (entry : Framed) : Framed :=
  (entry.1.relocate distance count, entry.2)

end Framed

theorem Halt.relocate {offset index : Nat} {bytes : Bytes} {ending : Option Outcome}
    (halt : Halt offset index bytes ending) (numbered : 0 < index) (distance count : Nat) :
    Halt (offset + distance) (index + count) bytes
      (ending.map (Outcome.relocate distance count)) := by
  cases halt with
  | finished ragged => exact .finished ragged
  | unframed refused =>
    apply Halt.unframed
    rw [Frame.read_relocate numbered, refused]
  | @misfit first rest frame form misfit framed failed =>
    obtain ⟨whole, -, isFrame⟩ := Frame.whole_of_read framed
    have numberedFrame : 0 < frame.index := by
      rw [isFrame]
      exact numbered
    rw [Option.map_some, ← Frame.outcomeOf_relocate numberedFrame]
    apply Halt.misfit
    · rw [Frame.read_relocate numbered, framed]
    · rw [Frame.instruction_relocate whole, failed]
      rfl

/-- What a byte string has to offer is the same further on. -/
theorem Scan.relocate {offset index : Nat} {bytes : Bytes} {entries : List Framed}
    {ending : Option Outcome} (scan : Scan offset index bytes entries ending)
    (numbered : 0 < index) (distance count : Nat) :
    Scan (offset + distance) (index + count) bytes (entries.map (Framed.relocate distance count))
      (ending.map (Outcome.relocate distance count)) := by
  induction scan with
  | halt halt => exact .halt (halt.relocate numbered distance count)
  | @instruction offset index first rest frame form inst entries ending framed parsed others
      inductionHypothesis =>
    obtain ⟨whole, -, -⟩ := Frame.whole_of_read framed
    have behind := inductionHypothesis (Nat.succ_pos index)
    rw [Nat.add_right_comm offset, Nat.add_right_comm index] at behind
    apply Scan.instruction
    · rw [Frame.read_relocate numbered, framed]
    · rw [Frame.instruction_relocate whole, parsed]
      rfl
    · exact behind

end SpirvInspector
