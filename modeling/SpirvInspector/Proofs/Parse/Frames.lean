import SpirvInspector.Proofs.Parse.OperandLoop

/-!
# Frames and the instructions in them

A frame is read where a first word promises a known instruction that is there in full. A frame holds
an instruction when its opcode, its word count and its bytes are those of the instruction and the
instruction conforms to the grammar, and that is exactly when parsing the frame yields the
instruction.
-/

set_option autoImplicit false

namespace SpirvInspector

namespace Instruction

theorem toNat_firstWord {inst : Instruction} (short : inst.wordCount < 0x10000) :
    inst.firstWord.toNat = inst.wordCount * 0x10000 + inst.opcode.toNat := by
  have opcode : inst.opcode.toNat < 0x10000 := inst.opcode.toNat_lt
  have shifted : (UInt32.ofNat inst.wordCount <<< 16).toNat = inst.wordCount <<< 16 := by
    rw [UInt32.toNat_shiftLeft, UInt32.toNat_ofNat_of_lt' (by simp [UInt32.size]; omega)]
    have : inst.wordCount <<< 16 < 0x100000000 := by
      rw [Nat.shiftLeft_eq]
      omega
    simpa using this
  rw [firstWord, UInt32.toNat_or, shifted, UInt16.toNat_toUInt32,
    ← Nat.shiftLeft_add_eq_or_of_lt opcode, Nat.shiftLeft_eq]

theorem wordCountOf_firstWord {inst : Instruction} (short : inst.wordCount < 0x10000) :
    Frame.wordCountOf inst.firstWord = inst.wordCount := by
  have opcode : inst.opcode.toNat < 0x10000 := inst.opcode.toNat_lt
  rw [Frame.wordCountOf, toNat_firstWord short]
  omega

theorem opcodeOf_firstWord {inst : Instruction} (short : inst.wordCount < 0x10000) :
    Frame.opcodeOf inst.firstWord = inst.opcode := by
  have opcode : inst.opcode.toNat < 0x10000 := inst.opcode.toNat_lt
  apply UInt16.toNat_inj.mp
  rw [Frame.opcodeOf, UInt32.toNat_toUInt16, toNat_firstWord short]
  omega

/-- A word count and an opcode leave no choice for the first word. -/
theorem eq_firstWord {inst : Instruction} {first : Word}
    (wordCount : inst.wordCount = Frame.wordCountOf first)
    (opcode : inst.opcode = Frame.opcodeOf first) : first = inst.firstWord := by
  have bound : first.toNat < 0x100000000 := first.toNat_lt
  have short : inst.wordCount < 0x10000 := by
    rw [wordCount, Frame.wordCountOf]
    omega
  apply UInt32.toNat_inj.mp
  rw [toNat_firstWord short, wordCount, opcode, Frame.wordCountOf, Frame.opcodeOf,
    UInt32.toNat_toUInt16]
  omega

end Instruction

namespace Frame

/-- A frame that holds as many words as its first word promises. -/
structure Whole (frame : Frame) : Prop where
  positive : 0 < frame.wordCount
  window : frame.window.length = 4 * (frame.wordCount - 1)

inductive Reads (offset index : Nat) (first : Word) (rest : Bytes) :
    Except Outcome (Frame × InstructionForm) → Prop
  | zero (isZero : wordCountOf first = 0) :
      Reads offset index first rest (.error (.located .wordCountZero offset index))
  | unknown (positive : 0 < wordCountOf first)
      (isUnknown : InstructionForm.ofOpcode? (opcodeOf first) = none) :
      Reads offset index first rest
        (.error { Outcome.located .opcodeUnknown offset index with opcode := opcodeOf first })
  | incomplete {form : InstructionForm} (positive : 0 < wordCountOf first)
      (known : InstructionForm.ofOpcode? (opcodeOf first) = some form)
      (short : rest.length < 4 * (wordCountOf first - 1)) :
      Reads offset index first rest (.error (.located .instructionIncomplete offset index))
  | framed {form : InstructionForm} (positive : 0 < wordCountOf first)
      (known : InstructionForm.ofOpcode? (opcodeOf first) = some form)
      (long : 4 * (wordCountOf first - 1) ≤ rest.length) :
      Reads offset index first rest
        (.ok (⟨offset, index, first, rest.take (4 * (wordCountOf first - 1))⟩, form))

theorem read_reads (offset index : Nat) (first : Word) (rest : Bytes) :
    Reads offset index first rest (read offset index first rest) := by
  simp only [read]
  split
  · next isZero => exact .zero isZero
  · next nonzero =>
    have positive := Nat.pos_of_ne_zero nonzero
    split
    · next isUnknown => exact .unknown positive isUnknown
    · next form known =>
      split
      · next enough => exact .framed positive known ((Bytes.hasAtLeast_iff _ _).mp enough)
      · next short =>
        rw [Bytes.hasAtLeast_iff] at short
        exact .incomplete positive known (by omega)

variable {frame : Frame} {form : InstructionForm} {inst : Instruction}

theorem read_of_known (offset index : Nat) {first : Word} {rest : Bytes}
    (positive : 0 < wordCountOf first)
    (known : InstructionForm.ofOpcode? (opcodeOf first) = some form)
    (long : 4 * (wordCountOf first - 1) ≤ rest.length) :
    read offset index first rest =
      .ok (⟨offset, index, first, rest.take (4 * (wordCountOf first - 1))⟩, form) := by
  have enough := (Bytes.hasAtLeast_iff _ _).mpr long
  simp [read, Nat.ne_of_gt positive, known, enough]

/-- A frame that was read starts with the word it was read from, and the bytes behind it are there
in full. -/
theorem whole_of_read {offset index : Nat} {first : Word} {rest : Bytes}
    (framed : read offset index first rest = .ok (frame, form)) :
    frame.Whole ∧ InstructionForm.ofOpcode? frame.opcode = some form ∧
      frame = ⟨offset, index, first, rest.take (4 * (wordCountOf first - 1))⟩ := by
  have reads := read_reads offset index first rest
  rw [framed] at reads
  cases reads with
  | framed positive known long =>
    exact ⟨⟨positive, List.length_take_of_le long⟩, known, rfl⟩

theorem Whole.limitRemaining (whole : frame.Whole) :
    frame.cursor.limitRemaining = frame.wordCount - 1 := by
  have limited : frame.cursor.limit = some (frame.wordCount - 1) := rfl
  have length : frame.cursor.rest.length = 4 * (frame.wordCount - 1) := whole.window
  rw [Cursor.limitRemaining_of_some limited, length]
  omega

theorem Whole.windowed (whole : frame.Whole) : frame.cursor.Windowed := by
  refine ⟨rfl, ?_, ?_⟩
  · rw [whole.limitRemaining]
    exact whole.window
  · rw [whole.limitRemaining]
    rfl

theorem Whole.readAt_iff (whole : frame.Whole) {operands : List Operand}
    (filled : Operand.listSize operands = frame.wordCount - 1) :
    ReadAt frame.cursor operands ↔ Spells (Operand.listCells operands) frame.window := by
  have all : frame.cursor.rest.take (4 * Operand.listSize operands) = frame.window := by
    rw [filled, ← whole.window]
    exact List.take_length
  constructor
  · intro read
    rw [← all]
    exact read.spelled rfl
  · intro spelled
    rw [← all] at spelled
    exact ⟨Nat.le_of_eq (by rw [filled, whole.limitRemaining]), fun _ => spelled⟩

def draft (frame : Frame) : Draft :=
  ⟨none, none, #[], frame.cursor⟩

end Frame

def Draft.instruction (draft : Draft) (opcode : Opcode) : Instruction :=
  ⟨opcode, draft.resultType, draft.resultId, draft.operands.toList⟩

namespace Frame

variable {frame : Frame} {form : InstructionForm} {inst : Instruction}

/-- The content of a draft is what stands between the start of the window and its cursor. -/
structure Consumed (frame : Frame) (draft : Draft) : Prop where
  read : ReadAt frame.cursor (draft.instruction frame.opcode).content
  cursor : draft.cursor =
    frame.cursor.advance (Operand.listSize (draft.instruction frame.opcode).content)

namespace Consumed

theorem start (frame : Frame) : Consumed frame frame.draft :=
  ⟨.nil _, (Cursor.advance_zero _).symm⟩

theorem extend {draft next : Draft} {taken : List Operand} (consumed : Consumed frame draft)
    (read : ReadAt draft.cursor taken)
    (content : (next.instruction frame.opcode).content =
      (draft.instruction frame.opcode).content ++ taken)
    (cursor : next.cursor = draft.cursor.advance (Operand.listSize taken)) :
    Consumed frame next := by
  rw [consumed.cursor] at read cursor
  refine ⟨?_, ?_⟩
  · rw [content]
    exact consumed.read.append read
  · rw [content, cursor, Cursor.advance_advance, Operand.listSize_append]

end Consumed

/-- What the loop over a listed form has read fills the form, in the order of the stream. -/
theorem fills_of_runs {draft : Draft} (listed : form ∈ InstructionForm.all) (whole : frame.Whole)
    (runs : Draft.Runs form.operands frame.draft (.ok draft)) :
    Fills form.operands draft.resultType draft.resultId draft.operands.toList ∧
      Consumed frame draft := by
  obtain ⟨results, body, split, closed, isResults⟩ := exists_closedBody listed
  have windowed : frame.draft.cursor.Windowed := whole.windowed
  have plain := closed.isResult_eq_false
  rw [split] at runs ⊢
  -- The results come first in each form, so their order in the form is that in the stream.
  simp only [List.mem_cons, List.not_mem_nil, or_false] at isResults
  rcases isResults with rfl | rfl | rfl
  · obtain ⟨operands, read, fills, rfl⟩ := runs.fills plain
    refine ⟨?_, (Consumed.start frame).extend read ?_ rfl⟩
    · simpa [Draft.append, draft] using fills
    · simp [Instruction.content, Draft.instruction, Draft.append, draft]
  · obtain ⟨id, readId, runs⟩ := (Draft.Runs.put_iff .id windowed).mp runs
    obtain ⟨operands, read, fills, rfl⟩ := runs.fills plain
    have consumedId : Consumed frame (frame.draft.put .id id) :=
      (Consumed.start frame).extend readId rfl rfl
    refine ⟨Fills.result_iff.mpr ⟨id, rfl, ?_⟩, consumedId.extend read ?_ rfl⟩
    · simpa [Draft.append, Draft.put, draft] using fills
    · simp [Instruction.content, Draft.instruction, Draft.append, Draft.put, draft]
  · obtain ⟨type, readType, runs⟩ := (Draft.Runs.put_iff .type windowed).mp runs
    obtain ⟨id, readId, runs⟩ := (Draft.Runs.put_iff .id (windowed.advance 1)).mp runs
    obtain ⟨operands, read, fills, rfl⟩ := runs.fills plain
    have consumedType : Consumed frame (frame.draft.put .type type) :=
      (Consumed.start frame).extend readType rfl rfl
    have consumedId : Consumed frame ((frame.draft.put .type type).put .id id) :=
      consumedType.extend readId rfl rfl
    refine ⟨Fills.type_iff.mpr ⟨type, rfl, Fills.result_iff.mpr ⟨id, rfl, ?_⟩⟩,
      consumedId.extend read ?_ rfl⟩
    · simpa [Draft.append, Draft.put, draft] using fills
    · simp [Instruction.content, Draft.instruction, Draft.append, Draft.put, draft]

inductive Parses (frame : Frame) (form : InstructionForm) : Except Misfit Instruction → Prop
  | parsed {draft : Draft} (runs : Draft.Runs form.operands frame.draft (.ok draft))
      (drained : draft.cursor.limitReached = true) :
      Parses frame form (.ok (draft.instruction frame.opcode))
  | exceeded {draft : Draft} (runs : Draft.Runs form.operands frame.draft (.ok draft))
      (remains : draft.cursor.limitReached = false) :
      Parses frame form (.error (.exceeded draft.cursor.offset))
  | misfit {misfit : Misfit} (runs : Draft.Runs form.operands frame.draft (.error misfit)) :
      Parses frame form (.error misfit)

theorem instruction_parses (whole : frame.Whole) (form : InstructionForm) :
    Parses frame form (frame.instruction form) := by
  have runs := Draft.operandList_runs form.operands
    (show frame.draft.cursor.Windowed from whole.windowed)
  unfold instruction
  split
  · next misfit isMisfit =>
    rw [show Draft.operandList form.operands frame.draft = _ from isMisfit] at runs
    exact .misfit runs
  · next draft isDraft =>
    rw [show Draft.operandList form.operands frame.draft = _ from isDraft] at runs
    split
    · next drained => exact .parsed runs drained
    · next remains => exact .exceeded runs (Bool.not_eq_true _ ▸ remains)

/-- The instruction that stands in a frame. -/
structure Holds (frame : Frame) (inst : Instruction) : Prop where
  opcode : inst.opcode = frame.opcode
  wordCount : inst.wordCount = frame.wordCount
  spelled : Spells (Operand.listCells inst.content) frame.window
  conforms : inst.Conforms

theorem Holds.whole (holds : frame.Holds inst) : frame.Whole := by
  have count := holds.wordCount
  have length := holds.spelled.length_eq
  unfold Instruction.wordCount at count
  rw [Operand.length_listCells] at length
  exact ⟨by omega, by omega⟩

theorem holds_of_instruction (whole : frame.Whole)
    (known : InstructionForm.ofOpcode? frame.opcode = some form)
    (parsed : frame.instruction form = .ok inst) : frame.Holds inst := by
  have parses := instruction_parses whole form
  rw [parsed] at parses
  cases parses with
  | @parsed draft runs drained =>
    obtain ⟨fills, read, cursor⟩ :=
      fills_of_runs (InstructionForm.mem_all_of_ofOpcode? known) whole runs
    have filled : Operand.listSize (draft.instruction frame.opcode).content =
        frame.wordCount - 1 := by
      rw [cursor, (whole.windowed.advance _).limitReached_iff, Cursor.limitRemaining_advance,
        whole.limitRemaining] at drained
      have within := read.within
      rw [whole.limitRemaining] at within
      omega
    refine ⟨rfl, ?_, (whole.readAt_iff filled).mp read, form, known, fills⟩
    rw [Instruction.wordCount, filled]
    have positive := whole.positive
    omega

/-- Operands behind some words of a window are read when they fill the rest of it. -/
theorem runs_of_body {body : List LogicalOperand} {operands : List Operand} {start : Draft}
    {words : Nat} (whole : frame.Whole) (fills : Fills body none none operands)
    (closed : ClosedBody body) (cursor : start.cursor = frame.cursor.advance words)
    (read : ReadAt (frame.cursor.advance words) operands)
    (filled : words + Operand.listSize operands = frame.wordCount - 1) :
    Draft.Runs body start (.ok ⟨start.resultType, start.resultId, start.operands ++ operands,
      frame.cursor.advance (words + Operand.listSize operands)⟩) := by
  have windowed : start.cursor.Windowed := by
    rw [cursor]
    exact whole.windowed.advance words
  have filledBehind : Operand.listSize operands = start.cursor.limitRemaining := by
    rw [cursor, Cursor.limitRemaining_advance, whole.limitRemaining]
    omega
  have runs := Draft.Runs.of_fills fills closed windowed (cursor ▸ read) filledBehind
  simpa [Draft.append, cursor] using runs

/-- The loop over a listed form reads what fills the form and the window. -/
theorem runs_of_fills (listed : form ∈ InstructionForm.all) (whole : frame.Whole)
    (fills : Fills form.operands inst.resultType inst.resultId inst.operands)
    (read : ReadAt frame.cursor inst.content)
    (filled : Operand.listSize inst.content = frame.wordCount - 1) :
    Draft.Runs form.operands frame.draft (.ok ⟨inst.resultType, inst.resultId,
      inst.operands.toArray, frame.cursor.advance (Operand.listSize inst.content)⟩) := by
  obtain ⟨results, body, split, closed, isResults⟩ := exists_closedBody listed
  have windowed : frame.draft.cursor.Windowed := whole.windowed
  obtain ⟨opcode, resultType, resultId, operands⟩ := inst
  rw [split] at fills ⊢
  simp only [List.mem_cons, List.not_mem_nil, or_false] at isResults
  rcases isResults with rfl | rfl | rfl
  · obtain ⟨rfl, rfl⟩ := fills.none_of_closedBody closed
    have runs := Draft.Runs.of_fills fills closed windowed read
      (filled.trans whole.limitRemaining.symm)
    simpa [Draft.append, draft, Instruction.content] using runs
  · obtain ⟨id, rfl, fills⟩ := Fills.result_iff.mp fills
    obtain ⟨rfl, -⟩ := fills.none_of_closedBody closed
    have content : Instruction.content ⟨opcode, none, some id, operands⟩ =
        [Place.id.operand id] ++ operands := rfl
    rw [content] at read
    rw [content, Operand.listSize_append, Place.listSize_operand] at filled ⊢
    refine (Draft.Runs.put_iff .id windowed).mpr ⟨id, read.front, ?_⟩
    simpa [Draft.put, draft] using
      runs_of_body whole fills closed (Draft.cursor_put frame.draft .id id) read.back filled
  · obtain ⟨type, rfl, fills⟩ := Fills.type_iff.mp fills
    obtain ⟨id, rfl, fills⟩ := Fills.result_iff.mp fills
    have content : Instruction.content ⟨opcode, some type, some id, operands⟩ =
        [Place.type.operand type] ++ ([Place.id.operand id] ++ operands) := rfl
    rw [content] at read
    rw [content, Operand.listSize_append, Operand.listSize_append, Place.listSize_operand,
      Place.listSize_operand, ← Nat.add_assoc] at filled ⊢
    refine (Draft.Runs.put_iff .type windowed).mpr ⟨type, read.front, ?_⟩
    refine (Draft.Runs.put_iff .id (windowed.advance 1)).mpr ⟨id, read.back.front, ?_⟩
    have cursor : ((frame.draft.put .type type).put .id id).cursor = frame.cursor.advance 2 :=
      Cursor.advance_advance _ _ _
    have behind := read.back.back
    rw [Place.listSize_operand, Place.listSize_operand, Cursor.advance_advance] at behind
    simpa [Draft.put, draft] using runs_of_body whole fills closed cursor behind filled

theorem instruction_of_holds (whole : frame.Whole)
    (known : InstructionForm.ofOpcode? frame.opcode = some form) (holds : frame.Holds inst) :
    frame.instruction form = .ok inst := by
  obtain ⟨opcode, wordCount, spelled, form', known', fills⟩ := holds
  rw [opcode, known] at known'
  cases known'
  have filled : Operand.listSize inst.content = frame.wordCount - 1 := by
    rw [← wordCount, Instruction.wordCount]
    omega
  have read := (whole.readAt_iff filled).mpr spelled
  have runs := runs_of_fills (InstructionForm.mem_all_of_ofOpcode? known) whole fills read filled
  have parsed : Draft.operandList form.operands ⟨none, none, #[], frame.cursor⟩ = _ :=
    runs.operandList_eq whole.windowed
  have drained : (frame.cursor.advance (Operand.listSize inst.content)).limitReached = true := by
    rw [(whole.windowed.advance _).limitReached_iff, Cursor.limitRemaining_advance,
      whole.limitRemaining, filled, Nat.sub_self]
  simp [instruction, parsed, drained, ← opcode]

end Frame

end SpirvInspector
