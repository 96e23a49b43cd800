import SpirvInspector.Proofs.Parse.Delivery
import SpirvInspector.Proofs.Parse.Relocation

/-!
# Parsing one module behind another

Nothing is carried from one instruction to the next but the place where it starts. So what stands
behind a whole module is parsed as if it stood right behind the header, only further on.
-/

set_option autoImplicit false

namespace SpirvInspector

namespace Frame

variable {offset index : Nat} {first : Word} {rest : Bytes} {frame : Frame} {form : InstructionForm}

theorem fits_of_read (framed : read offset index first rest = .ok (frame, form)) :
    4 * (frame.wordCount - 1) ≤ rest.length := by
  obtain ⟨whole, -, rfl⟩ := whole_of_read framed
  have window := whole.window
  rw [← window]
  exact List.length_take_le' _ _

/-- A frame that is there in full does not depend on what follows it. -/
theorem read_append (framed : read offset index first rest = .ok (frame, form)) (tail : Bytes) :
    read offset index first (rest ++ tail) = .ok (frame, form) := by
  have fits := fits_of_read framed
  have fitsToo : 4 * (frame.wordCount - 1) ≤ (rest ++ tail).length := by
    rw [List.length_append]
    exact Nat.le_add_right_of_le fits
  obtain ⟨whole, known, rfl⟩ := whole_of_read framed
  rw [read_of_known offset index whole.positive known fitsToo]
  exact congrArg (fun window => Except.ok (Frame.mk offset index first window, form))
    (List.take_append_of_le_length fits)

end Frame

/-- Behind the instructions of some bytes come those of the bytes that follow, unless there is a
ragged end in between. -/
theorem Scan.append {offset index : Nat} {bytes tail : Bytes} {entries later : List Framed}
    {ending : Option Outcome} (scan : Scan offset index bytes entries none)
    (aligned : 4 ∣ bytes.length)
    (others : Scan (offset + bytes.length) (index + entries.length) tail later ending) :
    Scan offset index (bytes ++ tail) (entries ++ later) ending := by
  generalize isNone : (none : Option Outcome) = halted at scan
  induction scan with
  | halt halt =>
    subst isNone
    have empty := Nat.eq_zero_of_dvd_of_lt aligned halt.ragged
    rw [List.length_eq_zero_iff.mp empty] at others ⊢
    exact others
  | @instruction offset index first rest frame form inst entries halted framed parsed behind
      inductionHypothesis =>
    have fits := Frame.fits_of_read framed
    have positive := (Frame.whole_of_read framed).1.positive
    have length : (rest.drop (4 * (frame.wordCount - 1))).length + 4 * frame.wordCount =
        (first.bytes ++ rest).length := by
      rw [List.length_drop, List.length_append, Word.length_bytes]
      omega
    rw [List.append_assoc, List.cons_append]
    apply Scan.instruction (Frame.read_append framed tail) parsed
    rw [List.drop_append_of_le_length fits]
    apply inductionHypothesis _ _ isNone
    · rw [← length, Nat.dvd_add_left ⟨_, rfl⟩] at aligned
      exact aligned
    · rw [← length, List.length_cons] at others
      rw [Nat.add_assoc, Nat.add_comm (4 * _), Nat.add_assoc, Nat.add_comm 1]
      exact others

section Behind

variable {bytes rest tail : Bytes} {header : Header} {entries later : List Framed}
  {ending : Option Outcome}

theorem Header.parse_append (parsed : parse bytes = .ok (header, rest)) (tail : Bytes) :
    parse (bytes ++ tail) = .ok (header, rest ++ tail) := by
  obtain ⟨magic, rfl⟩ := parse_eq_ok_iff.mp parsed
  rw [List.append_assoc, parse_words, if_pos magic]

theorem Header.parse_take (parsed : parse bytes = .ok (header, rest)) (tail : Bytes) :
    parse (bytes.take byteCount ++ tail) = .ok (header, tail) := by
  rw [(take_drop_of_parse parsed).1, parse_words, if_pos (parse_eq_ok_iff.mp parsed).1]

theorem Scan.behind (parsed : Header.parse bytes = .ok (header, rest))
    (aligned : 4 ∣ bytes.length) (scan : Scan Header.byteCount 1 rest entries none)
    (others : Scan Header.byteCount 1 tail later ending) :
    Scan Header.byteCount 1 (rest ++ tail)
      (entries ++ later.map (Framed.relocate (bytes.length - Header.byteCount) entries.length))
      (ending.map (Outcome.relocate (bytes.length - Header.byteCount) entries.length)) := by
  have length : rest.length = bytes.length - Header.byteCount := by
    rw [← (Header.take_drop_of_parse parsed).2, List.length_drop]
  have alignedRest : 4 ∣ rest.length := by
    rw [length]
    exact Nat.dvd_sub aligned ⟨Header.wordCount, rfl⟩
  apply scan.append alignedRest
  rw [length]
  exact others.relocate Nat.one_pos _ _

end Behind

theorem closing_map (ending : Option Outcome) (f : Outcome → Outcome) :
    closing (ending.map f) = closing ending := by
  cases ending <;> rfl

/-- A parse goes on behind a whole module as it would behind the header alone. It delivers the
instructions of the module first, and what follows is the same but further on. -/
theorem parse_compositional {bytes : Bytes} (tail : Bytes) (aligned : 4 ∣ bytes.length)
    (complete : (verdict bytes).state = .complete) :
    ∃ header entries later ending,
      transcript bytes = moduleEvents header entries none ∧
      transcript (bytes.take Header.byteCount ++ tail) = moduleEvents header later ending ∧
      transcript (bytes ++ tail) = moduleEvents header (entries ++ later.map
        (Framed.relocate (bytes.length - Header.byteCount) entries.length)) ending ∧
      ((verdict (bytes.take Header.byteCount ++ tail)).state = .complete →
        verdict (bytes ++ tail) = verdict (bytes.take Header.byteCount ++ tail)) ∧
      ((verdict (bytes.take Header.byteCount ++ tail)).state ≠ .complete →
        verdict (bytes ++ tail) = (verdict (bytes.take Header.byteCount ++ tail)).relocate
          (bytes.length - Header.byteCount) entries.length) := by
  obtain ⟨events, _, offers⟩ := exists_offers bytes
  rw [offers.verdict_eq] at complete
  rcases offers.complete_or_malformed with
    ⟨-, header, rest, entries, parsed, scan, rfl⟩ | ⟨malformed, -⟩
  · obtain ⟨later, ending, others⟩ := exists_scan Header.byteCount 1 tail
    have alone := Offers.opened (Header.parse_take parsed tail) others
    have behind := Offers.opened (Header.parse_append parsed tail)
      (Scan.behind parsed aligned scan others)
    refine ⟨header, entries, later, ending, offers.transcript_eq, alone.transcript_eq, ?_, ?_⟩
    · rw [behind.transcript_eq, moduleEvents, closing_map]
      rfl
    · rw [alone.verdict_eq, behind.verdict_eq]
      cases ending with
      | none =>
        constructor
        · intro _
          rfl
        · intro incomplete
          exact (incomplete rfl).elim
      | some outcome =>
        constructor
        · intro isComplete
          obtain ⟨-, halt⟩ :=
            others.laid (Header.take_drop_of_parse (Header.parse_take parsed tail)).2
          have malformed := ParseState.isMalformed_of_mem _ halt.state_mem
          rw [show outcome.state = .complete from isComplete] at malformed
          cases malformed
        · intro _
          rfl
  · rw [complete] at malformed
    cases malformed

/-- A module of one instruction. -/
def oneCapability : Bytes :=
  Word.serialize [Header.magicNumber, 0x10400, 0, 1, 0, 0x20011, 1]

/-- An instruction without operands, and behind it one whose operand is unknown. -/
def faultyTail : Bytes :=
  Word.serialize [0x10000, 0x20011, 9999]

theorem parse_faultyTail :
    4 ∣ oneCapability.length ∧ (verdict oneCapability).state = .complete ∧
      verdict (oneCapability ++ faultyTail) =
        .ofFault .operandError (.enumerantUnknown 36 .capability 9999) := by
  have aligned : 4 ∣ oneCapability.length := by decide
  have complete : (verdict oneCapability).state = .complete := by decide +kernel
  have alone : verdict (oneCapability.take Header.byteCount ++ faultyTail) =
      .ofFault .operandError (.enumerantUnknown 28 .capability 9999) := by
    decide +kernel
  obtain ⟨header, entries, later, ending, -, -, -, -, behind⟩ :=
    parse_compositional faultyTail aligned complete
  refine ⟨aligned, complete, ?_⟩
  rw [behind (by rw [alone]; decide), alone]
  rfl

end SpirvInspector
