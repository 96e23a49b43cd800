import SpirvInspector.Proofs.Parse.Delivery

/-!
# Where the blame for a malformed module goes

The outcome of malformed bytes names the header, or the first instruction that cannot be read: its
first word, the end of its window, or a word in the window.
-/

set_option autoImplicit false

namespace SpirvInspector

namespace Bytes

/-- The word at an offset, if it is there in full. -/
def wordAt? (bytes : Bytes) (offset : Nat) : Option Word :=
  match bytes.drop offset with
  | a :: b :: c :: d :: _ => some (.ofStream .little a b c d)
  | _ => none

theorem wordAt?_of_drop {bytes rest : Bytes} {offset : Nat} {word : Word}
    (there : bytes.drop offset = word.bytes ++ rest) : bytes.wordAt? offset = some word := by
  obtain ⟨a, b, c, d, isWord, stands⟩ := word.exists_bytes
  rw [wordAt?, there, isWord, ← stands]
  rfl

theorem wordAt?_of_take {bytes : Bytes} {offset : Nat} {word : Word}
    (there : (bytes.drop offset).take 4 = word.bytes) : bytes.wordAt? offset = some word := by
  apply wordAt?_of_drop
  rw [← there, List.take_append_drop]

end Bytes

/-- A fault of the operands between two offsets of a byte string. -/
inductive FaultBetween (bytes : Bytes) (start stop : Nat) : Fault → Prop
  | limitReached : FaultBetween bytes start stop (.limitReached stop)
  /-- The first value of a word that its kind does not know. -/
  | enumerantUnknown {offset : Nat} {kind : OperandKind} {word value : UInt32}
      {before behind : List UInt32} (inside : start ≤ offset ∧ offset < stop)
      (there : bytes.wordAt? offset = some word) (isEnumerated : kind.shape.isEnumerated = true)
      (values : kind.valuesIn word = before ++ value :: behind)
      (known : ∀ value ∈ before, kind.enumerant? value ≠ none)
      (isUnknown : kind.enumerant? value = none) :
      FaultBetween bytes start stop (.enumerantUnknown offset kind value)
  /-- A number that takes all words up to the end, and more than two of them. -/
  | literalWidthUnsupported {offset words : Nat} {kind : OperandKind}
      (inside : start ≤ offset ∧ offset < stop) (shape : kind.shape = .contextNumber)
      (upToEnd : offset + 4 * words = stop) (wide : 2 < words) :
      FaultBetween bytes start stop
        (.literalWidthUnsupported offset kind (UInt32.ofNat words))

/-- The outcome of an instruction that does not fit the operands between two offsets. -/
inductive BadOperands (bytes : Bytes) (index start stop : Nat) : Outcome → Prop
  | expected : BadOperands bytes index start stop (.located .operandExpected stop index)
  | exceeded {offset : Nat} (inside : start ≤ offset ∧ offset < stop) :
      BadOperands bytes index start stop (.located .operandExceeded offset index)
  | fault {fault : Fault} (between : FaultBetween bytes start stop fault) :
      BadOperands bytes index start stop (.ofFault .operandError fault)

namespace Frame

variable {frame : Frame} {form : InstructionForm} {bytes : Bytes}

theorem take_rest
    (there : (bytes.drop (frame.offset + 4)).take (4 * (frame.wordCount - 1)) = frame.window)
    {read : Nat} (within : read < frame.wordCount - 1) :
    (frame.cursor.advance read).rest.take 4 =
      (bytes.drop (frame.offset + 4 + 4 * read)).take 4 := by
  have rest : (frame.cursor.advance read).rest = frame.window.drop (4 * read) := rfl
  rw [rest, ← there, List.drop_take, List.take_take, List.drop_drop, Nat.min_eq_left (by omega)]

/-- An operand that cannot be read in a window is at fault inside of it or at its end. -/
theorem Whole.faultBetween (whole : frame.Whole)
    (there : (bytes.drop (frame.offset + 4)).take (4 * (frame.wordCount - 1)) = frame.window)
    {kind : OperandKind} {fault : Fault} {read words : Nat} (within : read ≤ frame.wordCount - 1)
    (failed : HeadFault kind (frame.cursor.advance read) fault words) :
    FaultBetween bytes (frame.offset + 4) (frame.offset + 4 * frame.wordCount) fault := by
  have windowed := whole.windowed.advance read
  have remaining : (frame.cursor.advance read).limitRemaining = frame.wordCount - 1 - read := by
    rw [Cursor.limitRemaining_advance, whole.limitRemaining]
  have place : (frame.cursor.advance read).offset = frame.offset + 4 + 4 * read := rfl
  have positive := whole.positive
  cases failed with
  | exhausted unread =>
    have stop : frame.offset + 4 + 4 * read + 4 * (frame.wordCount - 1 - read) =
        frame.offset + 4 * frame.wordCount := by omega
    rw [windowed.exhaustion_eq, remaining, place, stop]
    exact .limitReached
  | @unknown word value before behind isEnumerated available isRead values known isUnknown =>
    rw [remaining] at available
    have word : (bytes.drop (frame.offset + 4 + 4 * read)).take 4 = Word.bytes word := by
      rw [← take_rest there (by omega)]
      rcases (frame.cursor.advance read).nextWord_cases with ⟨-, _, readToo, isWord⟩ | ⟨-, failed⟩
      · rw [isRead] at readToo
        cases readToo
        exact isWord rfl
      · rw [isRead] at failed
        cases failed
    exact .enumerantUnknown ⟨by omega, by omega⟩ (Bytes.wordAt?_of_take word) isEnumerated values
      known isUnknown
  | tooWide shape wide =>
    rw [remaining] at wide ⊢
    exact .literalWidthUnsupported ⟨by omega, by omega⟩ shape (by omega) wide

theorem Whole.badOperands (whole : frame.Whole)
    (there : (bytes.drop (frame.offset + 4)).take (4 * (frame.wordCount - 1)) = frame.window)
    {misfit : Misfit} (failed : frame.instruction form = .error misfit) :
    BadOperands bytes frame.index (frame.offset + 4) (frame.offset + 4 * frame.wordCount)
      (frame.outcomeOf misfit) := by
  have parses := instruction_parses whole form
  rw [failed] at parses
  have positive := whole.positive
  cases parses with
  | @exceeded draft runs remains =>
    obtain ⟨words, -, cursor⟩ := runs.cursor_eq
    have isCursor : draft.cursor = frame.cursor.advance words := cursor
    rw [isCursor, (whole.windowed.advance words).limitReached_eq_false_iff,
      Cursor.limitRemaining_advance, whole.limitRemaining] at remains
    have place : draft.cursor.offset = frame.offset + 4 + 4 * words := by
      rw [isCursor]
      rfl
    rw [place, outcomeOf]
    exact .exceeded ⟨by omega, by omega⟩
  | misfit runs =>
    rcases runs.misfit whole.windowed with rfl | missed
    · have stop : frame.cursor.offset + 4 * frame.cursor.limitRemaining =
          frame.offset + 4 * frame.wordCount := by
        have start : frame.cursor.offset = frame.offset + 4 := rfl
        rw [whole.limitRemaining, start]
        omega
      rw [outcomeOf, ← stop]
      exact .expected
    · cases missed with
      | fault within isFault =>
        have inWindow := Nat.le_trans within (Nat.le_of_eq whole.limitRemaining)
        exact .fault (whole.faultBetween there inWindow isFault)

end Frame

/-- What the outcome says about an instruction that cannot be read, with this word at its start. -/
structure Attributed (bytes : Bytes) (offset index : Nat) (first : Word) (outcome : Outcome) :
    Prop where
  zero : outcome.state = .wordCountZero ↔ Frame.wordCountOf first = 0
  unknown : outcome.state = .opcodeUnknown ↔
    0 < Frame.wordCountOf first ∧ InstructionForm.ofOpcode? (Frame.opcodeOf first) = none
  incomplete : outcome.state = .instructionIncomplete ↔
    0 < Frame.wordCountOf first ∧ InstructionForm.ofOpcode? (Frame.opcodeOf first) ≠ none ∧
      (bytes.length - (offset + 4)) / 4 < Frame.wordCountOf first - 1
  located : outcome.state ∈ [.wordCountZero, .opcodeUnknown, .instructionIncomplete] →
    outcome.offset = offset ∧ outcome.index = index
  named : outcome.state = .opcodeUnknown → outcome.opcode = Frame.opcodeOf first
  operands : 0 < Frame.wordCountOf first →
    InstructionForm.ofOpcode? (Frame.opcodeOf first) ≠ none →
    Frame.wordCountOf first - 1 ≤ (bytes.length - (offset + 4)) / 4 →
    BadOperands bytes index (offset + 4) (offset + 4 * Frame.wordCountOf first) outcome

theorem Halt.attributed {bytes later : Bytes} {offset index : Nat} {outcome : Outcome}
    (halt : Halt offset index later (some outcome)) (here : bytes.drop offset = later) :
    ∃ first, bytes.wordAt? offset = some first ∧ Attributed bytes offset index first outcome := by
  cases halt with
  | @unframed first rest outcome refused =>
    refine ⟨first, Bytes.wordAt?_of_drop here, ?_⟩
    have length := congrArg List.length here
    rw [List.length_drop, List.length_append, Word.length_bytes] at length
    have reads := Frame.read_reads offset index first rest
    rw [refused] at reads
    cases reads with
    | zero isZero => constructor <;> simp [Outcome.located, isZero]
    | unknown positive isUnknown =>
      constructor <;> simp [Outcome.located, positive, Nat.ne_of_gt positive, isUnknown]
    | incomplete positive known short =>
      have few : (bytes.length - (offset + 4)) / 4 < Frame.wordCountOf first - 1 := by omega
      refine ⟨?_, ?_, ?_, ?_, ?_, fun _ _ enough => (Nat.not_le_of_lt few enough).elim⟩ <;>
        simp [Outcome.located, positive, Nat.ne_of_gt positive, known, few]
  | @misfit first rest frame form misfit framed failed =>
    refine ⟨first, Bytes.wordAt?_of_drop here, ?_⟩
    have length := congrArg List.length here
    rw [List.length_drop, List.length_append, Word.length_bytes] at length
    obtain ⟨whole, known, rfl⟩ := Frame.whole_of_read framed
    have positive : 0 < Frame.wordCountOf first := whole.positive
    have isKnown : InstructionForm.ofOpcode? (Frame.opcodeOf first) = some form := known
    have behind : bytes.drop (offset + 4) = rest := by
      rw [← List.drop_drop, here, List.drop_left' first.length_bytes]
    have enough : ¬(bytes.length - (offset + 4)) / 4 < Frame.wordCountOf first - 1 := by
      have window : (rest.take (4 * (Frame.wordCountOf first - 1))).length =
          4 * (Frame.wordCountOf first - 1) := whole.window
      rw [List.length_take] at window
      omega
    have bad := whole.badOperands (congrArg (List.take _) behind) failed
    refine ⟨?_, ?_, ?_, ?_, ?_, fun _ _ _ => bad⟩ <;>
      cases misfit <;>
        simp [Frame.outcomeOf, Outcome.located, Outcome.ofFault, Nat.ne_of_gt positive, isKnown,
          enough]

theorem verdict_of_short {bytes : Bytes} (short : bytes.length < Header.byteCount) :
    verdict bytes = .ofFault .headerIncomplete (.streamExpected 0) ∧
      transcript bytes = [.start] := by
  have offers := Offers.headless (Header.parse_of_short short)
  exact ⟨offers.verdict_eq, offers.transcript_eq⟩

theorem Header.exists_parse {bytes : Bytes} (long : byteCount ≤ bytes.length) :
    ∃ header rest, bytes.wordAt? 0 = some (magic header) ∧
      parse bytes =
        if header.magic = magicNumber then .ok (header, rest)
        else if header.magic = magicNumber.swapped then .error (.ofState .endiannessUnsupported)
        else .error (.ofState .headerIncorrect) := by
  obtain ⟨header, rest, rfl⟩ := exists_words long
  refine ⟨header, rest, ?_, parse_words header rest⟩
  have start : Word.serialize header.words ++ rest = header.magic.bytes ++ (Word.serialize
      [header.version, header.generator, header.bound, header.reserved] ++ rest) := by
    simp [Word.serialize, words]
  exact Bytes.wordAt?_of_drop start

section Opened

variable {bytes rest : Bytes} {header : Header}

/-- Behind a good header, the module is read up to its end or up to an instruction that cannot be
read. -/
theorem exists_halt (parsed : Header.parse bytes = .ok (header, rest)) :
    ∃ entries ending, transcript bytes = moduleEvents header entries ending ∧
      verdict bytes = ending.getD (.ofState .complete) ∧
      Halt (Header.byteCount + 4 * Framed.words entries) (entries.length + 1)
        (bytes.drop (Header.byteCount + 4 * Framed.words entries)) ending := by
  obtain ⟨entries, ending, scan⟩ := exists_scan Header.byteCount 1 rest
  have offers := Offers.opened parsed scan
  obtain ⟨-, halt⟩ := scan.laid (Header.take_drop_of_parse parsed).2
  rw [Nat.add_comm 1] at halt
  exact ⟨entries, ending, offers.transcript_eq, offers.verdict_eq, halt⟩

theorem state_mem_of_parse (parsed : Header.parse bytes = .ok (header, rest)) :
    (verdict bytes).state ∈ .complete :: ParseState.ofInstruction := by
  obtain ⟨entries, ending, -, isVerdict, halt⟩ := exists_halt parsed
  rw [isVerdict]
  cases ending with
  | none => exact List.mem_cons_self
  | some outcome => exact List.mem_cons_of_mem _ halt.state_mem

theorem exists_attributed (parsed : Header.parse bytes = .ok (header, rest))
    (incomplete : (verdict bytes).state ≠ .complete) :
    ∃ entries first, transcript bytes = moduleEvents header entries (some (verdict bytes)) ∧
      bytes.wordAt? (Header.byteCount + 4 * Framed.words entries) = some first ∧
      Attributed bytes (Header.byteCount + 4 * Framed.words entries) (entries.length + 1) first
        (verdict bytes) := by
  obtain ⟨entries, ending, delivered, isVerdict, halt⟩ := exists_halt parsed
  cases ending with
  | none =>
    rw [isVerdict] at incomplete
    exact (incomplete rfl).elim
  | some outcome =>
    have same : verdict bytes = outcome := isVerdict
    obtain ⟨first, isFirst, attributed⟩ := halt.attributed rfl
    rw [same]
    exact ⟨entries, first, delivered, isFirst, attributed⟩

end Opened

/-- Every malformed module is reported for what is wrong with it, at the place where it is wrong. -/
theorem verdict_attribution (bytes : Bytes) :
    (bytes.length < Header.byteCount →
      verdict bytes = .ofFault .headerIncomplete (.streamExpected 0) ∧
        transcript bytes = [.start]) ∧
    (Header.byteCount ≤ bytes.length →
      ((verdict bytes).state = .endiannessUnsupported ↔
        bytes.wordAt? 0 = some Header.magicNumber.swapped) ∧
      ((verdict bytes).state = .headerIncorrect ↔
        bytes.wordAt? 0 ≠ some Header.magicNumber ∧
          bytes.wordAt? 0 ≠ some Header.magicNumber.swapped) ∧
      (bytes.wordAt? 0 = some Header.magicNumber → (verdict bytes).state ≠ .complete →
        ∃ header entries first,
          transcript bytes = moduleEvents header entries (some (verdict bytes)) ∧
          bytes.wordAt? (Header.byteCount + 4 * Framed.words entries) = some first ∧
          Attributed bytes (Header.byteCount + 4 * Framed.words entries) (entries.length + 1) first
            (verdict bytes))) := by
  refine ⟨verdict_of_short, ?_⟩
  intro long
  obtain ⟨header, rest, isMagic, parsed⟩ := Header.exists_parse long
  have distinct : Header.magicNumber ≠ Header.magicNumber.swapped := by decide
  rw [isMagic]
  by_cases magic : header.magic = Header.magicNumber
  · rw [if_pos magic] at parsed
    have state := state_mem_of_parse parsed
    have notSwapped : (verdict bytes).state ≠ .endiannessUnsupported := by
      intro isState
      rw [isState] at state
      revert state
      decide
    have notIncorrect : (verdict bytes).state ≠ .headerIncorrect := by
      intro isState
      rw [isState] at state
      revert state
      decide
    exact ⟨by simp [notSwapped, magic, distinct], by simp [notIncorrect, magic],
      fun _ incomplete => ⟨header, exists_attributed parsed incomplete⟩⟩
  · rw [if_neg magic] at parsed
    by_cases swapped : header.magic = Header.magicNumber.swapped
    · rw [if_pos swapped] at parsed
      have isVerdict := (Offers.headless parsed).verdict_eq
      simp [isVerdict, Outcome.ofState, swapped, distinct.symm]
    · rw [if_neg swapped] at parsed
      have isVerdict := (Offers.headless parsed).verdict_eq
      simp [isVerdict, Outcome.ofState, swapped, magic]

/-- An instruction without operands, and behind it one whose operand is unknown. -/
def unknownCapability : Bytes :=
  Word.serialize [Header.magicNumber, 0x10400, 0, 1, 0, 0x10000, 0x20011, 9999]

theorem verdict_unknownCapability :
    (verdict unknownCapability).state ≠ .complete ∧
      ∃ header entries first,
        transcript unknownCapability =
          moduleEvents header entries (some (verdict unknownCapability)) ∧
        unknownCapability.wordAt? (Header.byteCount + 4 * Framed.words entries) = some first ∧
        Attributed unknownCapability (Header.byteCount + 4 * Framed.words entries)
          (entries.length + 1) first (verdict unknownCapability) := by
  have incomplete : (verdict unknownCapability).state ≠ .complete := by decide +kernel
  have long : Header.byteCount ≤ unknownCapability.length := by decide
  exact ⟨incomplete, ((verdict_attribution _).2 long).2.2 (by decide) incomplete⟩

end SpirvInspector
