import SpirvInspector.Parse.Parser
import SpirvInspector.Proofs.Parse.Frames

/-!
# What a byte string has to offer

The header and the instructions of a byte string, read one behind the other up to the end of the
bytes or to the first outcome that keeps the next one from being read. This depends on the bytes
alone. The parser hands it to a sink, event by event, until the sink refuses one.
-/

set_option autoImplicit false

namespace SpirvInspector

/-- An instruction with the frame it stands in. -/
abbrev Framed := Frame × Instruction

namespace Framed

def event (entry : Framed) : Event :=
  .instruction entry.1 entry.2

def words : List Framed → Nat
  | [] => 0
  | entry :: later => entry.1.wordCount + words later

@[simp] theorem words_nil : words [] = 0 := rfl

@[simp] theorem words_cons (entry : Framed) (later : List Framed) :
    words (entry :: later) = entry.1.wordCount + words later := rfl

end Framed

/-- No instruction is read at this offset and index: the bytes end there, or there is an outcome
that says what is wrong. -/
inductive Halt (offset index : Nat) : Bytes → Option Outcome → Prop
  | finished {bytes : Bytes} (ragged : bytes.length < 4) : Halt offset index bytes none
  | unframed {first : Word} {rest : Bytes} {outcome : Outcome}
      (refused : Frame.read offset index first rest = .error outcome) :
      Halt offset index (first.bytes ++ rest) (some outcome)
  | misfit {first : Word} {rest : Bytes} {frame : Frame} {form : InstructionForm} {misfit : Misfit}
      (framed : Frame.read offset index first rest = .ok (frame, form))
      (failed : frame.instruction form = .error misfit) :
      Halt offset index (first.bytes ++ rest) (some (frame.outcomeOf misfit))

/-- `Scan offset index bytes entries ending`: the instructions that stand one behind the other, the
first with this offset and index, up to where none is read. -/
inductive Scan : Nat → Nat → Bytes → List Framed → Option Outcome → Prop
  | halt {offset index : Nat} {bytes : Bytes} {ending : Option Outcome}
      (halt : Halt offset index bytes ending) : Scan offset index bytes [] ending
  | instruction {offset index : Nat} {first : Word} {rest : Bytes} {frame : Frame}
      {form : InstructionForm} {inst : Instruction} {entries : List Framed}
      {ending : Option Outcome}
      (framed : Frame.read offset index first rest = .ok (frame, form))
      (parsed : frame.instruction form = .ok inst)
      (others : Scan (offset + 4 * frame.wordCount) (index + 1)
        (rest.drop (4 * (frame.wordCount - 1))) entries ending) :
      Scan offset index (first.bytes ++ rest) ((frame, inst) :: entries) ending

theorem exists_scan (offset index : Nat) (bytes : Bytes) :
    ∃ entries ending, Scan offset index bytes entries ending := by
  -- Each frame takes four bytes at least, so the rest behind it is shorter.
  induction length : bytes.length using Nat.strongRecOn generalizing offset index bytes with
  | ind count inductionHypothesis =>
    subst length
    by_cases ragged : bytes.length < 4
    · exact ⟨[], none, .halt (.finished ragged)⟩
    · obtain ⟨a, b, c, d, rest, rfl⟩ := Bytes.exists_word (Nat.le_of_not_lt ragged)
      have split : a :: b :: c :: d :: rest = (Word.ofStream .little a b c d).bytes ++ rest := by
        simp
      rw [split]
      generalize Word.ofStream .little a b c d = first
      cases framed : Frame.read offset index first rest with
      | error outcome => exact ⟨[], some outcome, .halt (.unframed framed)⟩
      | ok read =>
        obtain ⟨frame, form⟩ := read
        cases parsed : frame.instruction form with
        | error misfit => exact ⟨[], _, .halt (.misfit framed parsed)⟩
        | ok inst =>
          have shorter : (rest.drop (4 * (frame.wordCount - 1))).length <
              (a :: b :: c :: d :: rest).length := by
            simp only [List.length_drop, List.length_cons]
            omega
          obtain ⟨entries, ending, others⟩ := inductionHypothesis _ shorter
            (offset + 4 * frame.wordCount) (index + 1) _ rfl
          exact ⟨_, ending, .instruction framed parsed others⟩

theorem Frame.drop_behind {bytes rest : Bytes} {offset index : Nat} {first : Word} {frame : Frame}
    {form : InstructionForm} (framed : Frame.read offset index first rest = .ok (frame, form))
    (here : bytes.drop offset = first.bytes ++ rest) :
    bytes.drop (offset + 4 * frame.wordCount) = rest.drop (4 * (frame.wordCount - 1)) := by
  have positive := (whole_of_read framed).1.positive
  have size : 4 * frame.wordCount = first.bytes.length + 4 * (frame.wordCount - 1) := by
    rw [first.length_bytes]
    omega
  rw [← List.drop_drop, here, size, List.drop_length_add_append]

/-- `Laid bytes offset index entries`: the instructions stand in the bytes one behind the other, the
first of them with this offset and index. -/
inductive Laid (bytes : Bytes) : Nat → Nat → List Framed → Prop
  | nil {offset index : Nat} : Laid bytes offset index []
  | cons {frame : Frame} {inst : Instruction} {later : List Framed} (holds : frame.Holds inst)
      (there : (bytes.drop frame.offset).take (4 * frame.wordCount) =
        frame.first.bytes ++ frame.window)
      (others : Laid bytes (frame.offset + 4 * frame.wordCount) (frame.index + 1) later) :
      Laid bytes frame.offset frame.index ((frame, inst) :: later)

theorem Scan.laid {bytes rest : Bytes} {offset index : Nat} {entries : List Framed}
    {ending : Option Outcome} (scan : Scan offset index rest entries ending)
    (here : bytes.drop offset = rest) :
    Laid bytes offset index entries ∧
      Halt (offset + 4 * Framed.words entries) (index + entries.length)
        (bytes.drop (offset + 4 * Framed.words entries)) ending := by
  induction scan with
  | halt halt => exact ⟨.nil, by simpa [here] using halt⟩
  | @instruction offset index first rest frame form inst entries ending framed parsed others
      inductionHypothesis =>
    have behind := Frame.drop_behind framed here
    obtain ⟨whole, known, rfl⟩ := Frame.whole_of_read framed
    have holds := Frame.holds_of_instruction whole known parsed
    have positive : 0 < Frame.wordCountOf first := whole.positive
    have size : 4 * Frame.wordCountOf first =
        first.bytes.length + 4 * (Frame.wordCountOf first - 1) := by
      rw [first.length_bytes]
      omega
    have there : (bytes.drop offset).take (4 * Frame.wordCountOf first) =
        first.bytes ++ rest.take (4 * (Frame.wordCountOf first - 1)) := by
      rw [here, size, List.take_length_add_append]
    obtain ⟨laid, halt⟩ := inductionHypothesis behind
    refine ⟨.cons holds there laid, ?_⟩
    rw [Framed.words_cons, List.length_cons, Nat.mul_add, ← Nat.add_assoc, Nat.add_comm _ 1,
      ← Nat.add_assoc]
    exact halt

namespace Header

theorem nextWords_of_short {bytes : Bytes} (short : bytes.length < byteCount) :
    (Cursor.ofBytes bytes .little).nextWords wordCount =
      (.error (.streamExpected 0), .ofBytes bytes .little) := by
  have few : bytes.hasAtLeast (4 * wordCount) = false := by
    rw [← Bool.not_eq_true, Bytes.hasAtLeast_iff]
    exact Nat.not_le_of_lt short
  simp [Cursor.nextWords, Cursor.refusal, Cursor.ofBytes, few]

theorem parse_of_short {bytes : Bytes} (short : bytes.length < byteCount) :
    parse bytes = .error (.ofFault .headerIncomplete (.streamExpected 0)) := by
  rw [parse, nextWords_of_short short]

theorem nextWords_words (header : Header) (rest : Bytes) :
    (Cursor.ofBytes (Word.serialize header.words ++ rest) .little).nextWords wordCount =
      (.ok header.words, ⟨rest, byteCount, none, .little⟩) := by
  have length : (Word.serialize header.words).length = 4 * wordCount :=
    header.length_serialize_words
  have available : wordCount ≤
      (Cursor.ofBytes (Word.serialize header.words ++ rest) .little).limitRemaining := by
    rw [Cursor.limitRemaining_of_none rfl]
    simp only [Cursor.ofBytes, List.length_append, length]
    omega
  have front : (Cursor.ofBytes (Word.serialize header.words ++ rest) .little).rest.take
      (4 * wordCount) = Word.serialize header.words := List.take_left' length
  have back : (Cursor.ofBytes (Word.serialize header.words ++ rest) .little).advance wordCount =
      ⟨rest, byteCount, none, .little⟩ := by
    rw [Cursor.advance, Cursor.ofBytes, List.drop_left' length]
    rfl
  rw [Cursor.nextWords_of_le available, front, back,
    show (Cursor.ofBytes _ .little).order = .little from rfl, Word.ofBytes_serialize]

/-- The magic number decides about a header that is there in full. -/
theorem parse_words (header : Header) (rest : Bytes) :
    parse (Word.serialize header.words ++ rest) =
      if header.magic = magicNumber then .ok (header, rest)
      else if header.magic = magicNumber.swapped then .error (.ofState .endiannessUnsupported)
      else .error (.ofState .headerIncorrect) := by
  rw [parse, nextWords_words]
  rfl

theorem exists_words {bytes : Bytes} (long : byteCount ≤ bytes.length) :
    ∃ header rest, bytes = Word.serialize (words header) ++ rest := by
  have length : (bytes.take byteCount).length = 4 * wordCount := List.length_take_of_le long
  have front := Word.serialize_ofBytes length
  have five : (Word.ofBytes .little (bytes.take byteCount)).length = wordCount := by
    have size := congrArg List.length front
    rw [length] at size
    simp [Word.serialize] at size
    omega
  obtain ⟨magic, others, isWords⟩ := List.exists_cons_of_length_eq_add_one five
  rw [isWords] at front five
  obtain ⟨version, generator, bound, reserved, rfl⟩ := List.length_eq_four.mp (Nat.succ.inj five)
  refine ⟨⟨magic, version, generator, bound, reserved⟩, bytes.drop byteCount, ?_⟩
  change bytes = Word.serialize [magic, version, generator, bound, reserved] ++ _
  rw [front, List.take_append_drop]

theorem parse_eq_ok_iff {bytes rest : Bytes} {header : Header} :
    parse bytes = .ok (header, rest) ↔
      header.magic = magicNumber ∧ bytes = Word.serialize header.words ++ rest := by
  constructor
  · intro parsed
    by_cases short : bytes.length < byteCount
    · rw [parse_of_short short] at parsed
      cases parsed
    · obtain ⟨found, later, rfl⟩ := exists_words (Nat.le_of_not_lt short)
      rw [parse_words] at parsed
      split at parsed
      · next magic =>
        cases parsed
        exact ⟨magic, rfl⟩
      · split at parsed <;> cases parsed
  · rintro ⟨magic, rfl⟩
    rw [parse_words, if_pos magic]

theorem take_drop_of_parse {bytes rest : Bytes} {header : Header}
    (parsed : parse bytes = .ok (header, rest)) :
    bytes.take byteCount = Word.serialize header.words ∧ bytes.drop byteCount = rest := by
  obtain ⟨-, rfl⟩ := parse_eq_ok_iff.mp parsed
  have length := header.length_serialize_words
  exact ⟨List.take_left' length, List.drop_left' length⟩

end Header

namespace ParseState

/-- Whether a state is about malformed bytes. The other states are about the end of a module or
about the sink. -/
def isMalformed : ParseState → Bool
  | complete => false
  | consumerStopRequested => false
  | consumerError => false
  | _ => true

/-- The states of a header that cannot be read. -/
def ofHeader : List ParseState :=
  [headerIncomplete, headerIncorrect, endiannessUnsupported]

/-- The states of an instruction that cannot be read. -/
def ofInstruction : List ParseState :=
  [instructionIncomplete, wordCountZero, opcodeUnknown, operandExpected, operandExceeded,
   operandError]

theorem isMalformed_of_mem : ∀ state ∈ ofInstruction, state.isMalformed = true := by decide

end ParseState

theorem Header.state_mem {bytes : Bytes} {outcome : Outcome}
    (refused : Header.parse bytes = .error outcome) : outcome.state ∈ ParseState.ofHeader := by
  by_cases short : bytes.length < byteCount
  · rw [parse_of_short short] at refused
    cases refused
    decide
  · obtain ⟨header, rest, rfl⟩ := exists_words (Nat.le_of_not_lt short)
    rw [parse_words] at refused
    split at refused
    · cases refused
    · split at refused <;> (cases refused; decide)

theorem Header.isMalformed_of_parse {bytes : Bytes} {outcome : Outcome}
    (refused : Header.parse bytes = .error outcome) : outcome.state.isMalformed = true := by
  have every : ∀ state ∈ ParseState.ofHeader, state.isMalformed = true := by decide
  exact every _ (state_mem refused)

theorem Halt.ragged {offset index : Nat} {bytes : Bytes} (halt : Halt offset index bytes none) :
    bytes.length < 4 := by
  cases halt with
  | finished ragged => exact ragged

theorem Halt.state_mem {offset index : Nat} {bytes : Bytes} {outcome : Outcome}
    (halt : Halt offset index bytes (some outcome)) : outcome.state ∈ ParseState.ofInstruction := by
  cases halt with
  | @unframed first rest _ refused =>
    have reads := Frame.read_reads offset index first rest
    rw [refused] at reads
    cases reads <;> simp [Outcome.located, ParseState.ofInstruction]
  | @misfit _ _ frame form misfit framed failed =>
    cases misfit <;>
      simp [Frame.outcomeOf, Outcome.located, Outcome.ofFault, ParseState.ofInstruction]

end SpirvInspector
