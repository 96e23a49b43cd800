import SpirvInspector.Proofs.Parse.Composition
import SpirvInspector.Proofs.Parse.Observers

/-!
# Modules with a ragged tail

Behind whole words, fewer than four bytes are a tail that nobody reads. Wherever the parser asks how
many bytes are left, it asks for whole words, and a ragged tail does not add one. So a parse
delivers the same and ends the same with the tail as without it.
-/

set_option autoImplicit false

namespace SpirvInspector

variable {σ : Type} {bytes tail : Bytes}

/-- A ragged tail behind whole words makes no further word. -/
theorem Bytes.hasAtLeast_ragged (aligned : 4 ∣ bytes.length) (ragged : tail.length < 4)
    (words : Nat) : (bytes ++ tail).hasAtLeast (4 * words) = bytes.hasAtLeast (4 * words) := by
  obtain ⟨count, length⟩ := aligned
  rw [Bool.eq_iff_iff, hasAtLeast_iff, hasAtLeast_iff, List.length_append, length]
  constructor
  · intro enough
    omega
  · intro enough
    exact Nat.le_add_right_of_le enough

theorem Header.parse_ragged {outcome : Outcome} (aligned : 4 ∣ bytes.length)
    (ragged : tail.length < 4) (refused : parse bytes = .error outcome) :
    parse (bytes ++ tail) = .error outcome := by
  by_cases long : byteCount ≤ bytes.length
  · obtain ⟨header, rest, rfl⟩ := exists_words long
    rw [parse_words] at refused
    rw [List.append_assoc, parse_words]
    -- The magic number decides, and it is not the known one.
    split at refused
    · cases refused
    · next unknown => rwa [if_neg unknown]
  · have shortToo : (bytes ++ tail).length < byteCount := by
      apply Nat.lt_of_not_le
      intro longToo
      have enough := (Bytes.hasAtLeast_iff (bytes ++ tail) (4 * wordCount)).mpr longToo
      rw [Bytes.hasAtLeast_ragged aligned ragged] at enough
      exact long ((Bytes.hasAtLeast_iff bytes (4 * wordCount)).mp enough)
    rw [parse_of_short (Nat.lt_of_not_le long)] at refused
    rw [parse_of_short shortToo, refused]

/-- A frame is there in full with the tail exactly when it is without it. -/
theorem Frame.read_ragged (aligned : 4 ∣ bytes.length) (ragged : tail.length < 4)
    (offset index : Nat) (first : Word) :
    read offset index first (bytes ++ tail) = read offset index first bytes := by
  cases framed : read offset index first bytes with
  | ok result => exact read_append framed tail
  | error outcome =>
    have reads := read_reads offset index first bytes
    rw [framed] at reads
    cases reads with
    | zero isZero => simp [read, isZero]
    | unknown positive isUnknown => simp [read, Nat.ne_of_gt positive, isUnknown]
    | incomplete positive known short =>
      have few : (bytes ++ tail).hasAtLeast (4 * (wordCountOf first - 1)) = false := by
        rw [Bytes.hasAtLeast_ragged aligned ragged, ← Bool.not_eq_true, Bytes.hasAtLeast_iff]
        exact Nat.not_le_of_lt short
      simp [read, Nat.ne_of_gt positive, known, few]

theorem Word.dvd_length_behind {first : Word} {rest : Bytes}
    (aligned : 4 ∣ (first.bytes ++ rest).length) : 4 ∣ rest.length := by
  rw [List.length_append, length_bytes] at aligned
  exact (Nat.dvd_add_right (Nat.dvd_refl 4)).mp aligned

theorem Halt.raggedTail {offset index : Nat} {ending : Option Outcome}
    (halt : Halt offset index bytes ending) (aligned : 4 ∣ bytes.length)
    (ragged : tail.length < 4) : Halt offset index (bytes ++ tail) ending := by
  cases halt with
  | finished few =>
    have empty : bytes = [] := List.length_eq_zero_iff.mp (Nat.eq_zero_of_dvd_of_lt aligned few)
    rw [empty]
    exact .finished ragged
  | unframed refused =>
    have alignedRest := Word.dvd_length_behind aligned
    rw [List.append_assoc]
    apply Halt.unframed
    rw [Frame.read_ragged alignedRest ragged, refused]
  | misfit framed failed =>
    rw [List.append_assoc]
    exact .misfit (Frame.read_append framed tail) failed

/-- Instruction by instruction, a scan goes the same way and halts at the same place. -/
theorem Scan.raggedTail {offset index : Nat} {entries : List Framed} {ending : Option Outcome}
    (scan : Scan offset index bytes entries ending) (aligned : 4 ∣ bytes.length)
    (ragged : tail.length < 4) : Scan offset index (bytes ++ tail) entries ending := by
  induction scan with
  | halt halt => exact .halt (halt.raggedTail aligned ragged)
  | @instruction offset index first rest frame form inst entries ending framed parsed others
      inductionHypothesis =>
    have fits := Frame.fits_of_read framed
    have alignedBehind : 4 ∣ (rest.drop (4 * (frame.wordCount - 1))).length := by
      rw [List.length_drop]
      exact Nat.dvd_sub (Word.dvd_length_behind aligned) ⟨_, rfl⟩
    rw [List.append_assoc]
    apply Scan.instruction (Frame.read_append framed tail) parsed
    rw [List.drop_append_of_le_length fits]
    exact inductionHypothesis alignedBehind

/-- What bytes have to offer is the same with a ragged tail. -/
theorem Offers.raggedTail {events : List Event} {ending : Outcome}
    (offers : Offers bytes events ending) (aligned : 4 ∣ bytes.length)
    (ragged : tail.length < 4) : Offers (bytes ++ tail) events ending := by
  cases offers with
  | headless refused => exact .headless (Header.parse_ragged aligned ragged refused)
  | @opened header rest entries ending parsed scan =>
    have alignedRest : 4 ∣ rest.length := by
      rw [← (Header.take_drop_of_parse parsed).2, List.length_drop]
      exact Nat.dvd_sub aligned ⟨Header.wordCount, rfl⟩
    exact .opened (Header.parse_append parsed tail) (scan.raggedTail alignedRest ragged)

/-- Whatever the sink is and however the parse ends, a ragged tail changes neither the calls of the
sink, nor the outcome, nor the state the sink is left in, nor the trace on the way. -/
theorem parse_raggedTail (aligned : 4 ∣ bytes.length) (ragged : tail.length < 4) (sink : Sink σ)
    (state : σ) :
    (parse sink.logged (state, []) (bytes ++ tail)).2.2 =
        (parse sink.logged (state, []) bytes).2.2 ∧
      parse sink state (bytes ++ tail) = parse sink state bytes ∧
      ∀ verbosity, parseVerbosely sink state verbosity (bytes ++ tail) =
        parseVerbosely sink state verbosity bytes := by
  obtain ⟨events, ending, offers⟩ := exists_offers bytes
  have offersToo := offers.raggedTail aligned ragged
  have same {τ : Type} (observer : Sink τ) (start : τ) :
      parse observer start (bytes ++ tail) = parse observer start bytes := by
    rw [parse_of_offers observer start offers, parse_of_offers observer start offersToo]
  refine ⟨?_, same sink state, ?_⟩
  · rw [same sink.logged]
  · intro verbosity
    exact same (sink.traced (decide (1 < verbosity))) ⟨state, #[]⟩

/-- An instruction that wants two words and has one, with three bytes behind it. -/
def cutMemoryModel : Bytes :=
  oneCapability ++ Word.serialize [0x3000E, 0]

theorem parse_cutMemoryModel :
    4 ∣ cutMemoryModel.length ∧ [1, 0, 0].length < 4 ∧
      verdict (cutMemoryModel ++ [1, 0, 0]) = .located .instructionIncomplete 28 2 := by
  have aligned : 4 ∣ cutMemoryModel.length := by decide
  have ragged : ([1, 0, 0] : Bytes).length < 4 := by decide
  obtain ⟨-, same, -⟩ := parse_raggedTail aligned ragged (.recorder none) #[]
  refine ⟨aligned, ragged, ?_⟩
  rw [verdict, same]
  decide +kernel

end SpirvInspector
