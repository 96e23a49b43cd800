import SpirvInspector.Proofs.Diagnostic.Excerpt
import SpirvInspector.Proofs.Load.Agreement
import SpirvInspector.Proofs.Parse.Attribution

/-!
# Errors at an instruction are shown in context

An outcome that is about an instruction is located at one of its words, at the first word behind it,
or where the input ends. Only a word that is missing is looked for at the end of the input, and only
there is nothing to show. All other errors of a load at an instruction come with their location and
with a dump of the words around it.
-/

set_option autoImplicit false

namespace SpirvInspector

namespace Outcome

/-- A word is missing: the operands end where another one is required, or inside of one. -/
def MissesWord (outcome : Outcome) : Prop :=
  outcome.state = .operandExpected ∨
    outcome.state = .operandError ∧ ∃ fault, outcome.cause = some fault ∧ fault.code = .limitReached

/-- An outcome at an instruction, located at a word of the input or at its end. -/
structure AtWord (outcome : Outcome) (input : Bytes) : Prop where
  state : outcome.state ∈ .consumerError :: ParseState.ofInstruction
  indexed : outcome.state ≠ .operandError → outcome.index ≠ 0
  aligned : 4 ∣ outcome.offset
  within : outcome.offset ≤ input.length
  missing : outcome.offset = input.length → outcome.MissesWord

namespace AtWord

variable {outcome : Outcome} {input : Bytes}

end AtWord

end Outcome

/-- A fault in a window is at the end of it only where a word is missing. -/
theorem HeadFault.exists_place {kind : OperandKind} {cursor : Cursor} {fault : Fault} {words : Nat}
    (failed : HeadFault kind cursor fault words) (windowed : cursor.Windowed) :
    ∃ read ≤ cursor.limitRemaining, fault.offset = cursor.offset + 4 * read ∧
      (read = cursor.limitRemaining → fault.code = .limitReached) := by
  cases failed with
  | exhausted unread =>
    refine ⟨cursor.limitRemaining, Nat.le_refl _, ?_, fun _ => ?_⟩
    · rw [windowed.exhaustion_eq]
      rfl
    · rw [windowed.exhaustion_eq]
      rfl
  | unknown isEnumerated available => exact ⟨0, Nat.zero_le _, rfl, fun none => by omega⟩
  | tooWide shape wide => exact ⟨0, Nat.zero_le _, rfl, fun none => by omega⟩

namespace Frame

variable {frame : Frame} {form : InstructionForm}

/-- The words of a window that were read before it was found not to fit. All of them were read only
where another one is missing. -/
theorem Whole.exists_place (whole : frame.Whole) {misfit : Misfit}
    (failed : frame.instruction form = .error misfit) :
    ∃ words ≤ frame.wordCount - 1,
      (frame.outcomeOf misfit).offset = frame.offset + 4 + 4 * words ∧
      (words = frame.wordCount - 1 → (frame.outcomeOf misfit).MissesWord) := by
  have parses := instruction_parses whole form
  rw [failed] at parses
  cases parses with
  | @exceeded draft runs remains =>
    obtain ⟨words, -, cursor⟩ := runs.cursor_eq
    have isCursor : draft.cursor = frame.cursor.advance words := cursor
    rw [isCursor, (whole.windowed.advance words).limitReached_eq_false_iff,
      Cursor.limitRemaining_advance, whole.limitRemaining] at remains
    refine ⟨words, by omega, ?_, by omega⟩
    rw [isCursor]
    rfl
  | misfit runs =>
    rcases runs.misfit whole.windowed with rfl | ⟨within, isFault⟩
    · refine ⟨frame.wordCount - 1, Nat.le_refl _, ?_, fun _ => .inl rfl⟩
      rw [← whole.limitRemaining]
      rfl
    · next read words kind fault =>
      have atStart : frame.draft.cursor = frame.cursor := rfl
      rw [atStart] at within isFault
      obtain ⟨behind, withinBehind, offset, isLimit⟩ :=
        isFault.exists_place (whole.windowed.advance read)
      rw [Cursor.limitRemaining_advance, whole.limitRemaining] at withinBehind isLimit
      rw [whole.limitRemaining] at within
      refine ⟨read + behind, by omega, ?_, ?_⟩
      · have start : (frame.cursor.advance read).offset = frame.offset + 4 + 4 * read := rfl
        rw [start] at offset
        exact offset.trans (by omega)
      · intro all
        exact .inr ⟨rfl, fault, rfl, isLimit (by omega)⟩

end Frame

/-- An instruction that cannot be read is reported at one of its words, or behind it. -/
theorem Halt.atWord {input later : Bytes} {offset index : Nat} {outcome : Outcome}
    (halt : Halt offset index later (some outcome)) (here : input.drop offset = later)
    (aligned : 4 ∣ offset) (positive : 0 < index) : outcome.AtWord input := by
  have state := List.mem_cons_of_mem .consumerError halt.state_mem
  have length := congrArg List.length here
  cases halt with
  | @unframed first rest outcome refused =>
    rw [List.length_drop, List.length_append, Word.length_bytes] at length
    obtain ⟨isOffset, isIndex⟩ : outcome.offset = offset ∧ outcome.index = index := by
      have reads := Frame.read_reads offset index first rest
      rw [refused] at reads
      cases reads <;> exact ⟨rfl, rfl⟩
    refine ⟨state, ?_, ?_, by omega, by omega⟩
    · intro _
      rw [isIndex]
      exact Nat.ne_of_gt positive
    · rw [isOffset]
      exact aligned
  | @misfit first rest frame form misfit framed failed =>
    rw [List.length_drop, List.length_append, Word.length_bytes] at length
    obtain ⟨whole, -, isFrame⟩ := Frame.whole_of_read framed
    obtain ⟨words, within, place, missing⟩ := whole.exists_place failed
    have start : frame.offset = offset := by rw [isFrame]
    have long : 4 * (frame.wordCount - 1) ≤ rest.length := by
      rw [← whole.window, isFrame]
      exact List.length_take_le' _ _
    refine ⟨state, ?_, by omega, by omega, ?_⟩
    · intro notFault
      have isIndex : (frame.outcomeOf misfit).index = index := by
        cases misfit with
        | fault fault => exact (notFault rfl).elim
        | expected offset => exact congrArg Frame.index isFrame
        | exceeded offset => exact congrArg Frame.index isFrame
      rw [isIndex]
      exact Nat.ne_of_gt positive
    · intro atEnd
      exact missing (by omega)

/-- Instructions that are laid out behind a header start at words of the input. -/
theorem Laid.of_mem {input : Bytes} {offset index : Nat} {entries : List Framed} {entry : Framed}
    (laid : Laid input offset index entries) (isEntry : entry ∈ entries) (aligned : 4 ∣ offset)
    (positive : 0 < index) :
    4 ∣ entry.1.offset ∧ 0 < entry.1.index ∧ entry.1.offset < input.length := by
  induction laid with
  | nil => cases isEntry
  | @cons frame inst later holds there others inductionHypothesis =>
    cases isEntry with
    | head =>
      refine ⟨aligned, positive, ?_⟩
      have length := congrArg List.length there
      rw [List.length_take, List.length_drop, List.length_append, Word.length_bytes] at length
      dsimp only
      omega
    | tail _ isLater =>
      exact inductionHypothesis isLater (Nat.dvd_add aligned (Nat.dvd_mul_right _ _))
        (Nat.succ_pos _)

/-- What bytes have to offer ends at an instruction only where one cannot be read. -/
theorem Offers.atWord {input : Bytes} {events : List Event} {ending : Outcome}
    (offers : Offers input events ending) (state : ending.state ∈ ParseState.ofInstruction) :
    ending.AtWord input := by
  cases offers with
  | headless refused =>
    have apart : ∀ state ∈ ParseState.ofHeader, state ∉ ParseState.ofInstruction := by decide
    exact (apart _ (Header.state_mem refused) state).elim
  | @opened header rest entries ending parsed scan =>
    cases ending with
    | none => cases ParseState.isMalformed_of_mem _ state
    | some outcome =>
      obtain ⟨-, halt⟩ := scan.laid (Header.take_drop_of_parse parsed).2
      apply halt.atWord rfl
      · exact Nat.dvd_add (by decide) (Nat.dvd_mul_right _ _)
      · omega

namespace Loader

/-- A load ends at an instruction: the instruction cannot be read, or the loader has an error for
it. -/
def EndsAtInstruction (limit : Nat) (input : Bytes) : Prop :=
  (parse sink (.ofModule {} limit) input).1.state ∈ ParseState.ofInstruction ∨
    ∃ frame inst reason, (parse sink.logged (.ofModule {} limit, []) input).2.2.getLast? =
      some ⟨.instruction frame inst, .error reason⟩

theorem EndsAtInstruction.atWord {limit : Nat} {input : Bytes}
    (ended : EndsAtInstruction limit input) :
    (parse sink (.ofModule {} limit) input).1.AtWord input := by
  obtain ⟨events, ending, offers⟩ := exists_offers input
  obtain ⟨calls, heard, log⟩ := sink.offer_logged ending events (ofModule {} limit) []
  unfold EndsAtInstruction at ended
  rw [parse_of_offers _ _ offers] at ended ⊢
  rw [parse_of_offers _ _ offers, log, List.nil_append] at ended
  rcases heard.accepted_or_refused with
    ⟨rfl, isEnding⟩ | ⟨before, event, later, answer, rfl, rfl, refused⟩
  · rcases ended with malformed | ⟨frame, inst, reason, isLast⟩
    · rw [isEnding] at malformed ⊢
      exact offers.atWord malformed
    · -- Every answer was to go on.
      obtain ⟨event, -, same⟩ := List.mem_map.mp (List.mem_of_getLast? isLast)
      cases same
  · generalize (sink.offer ending (before ++ event :: later) (ofModule {} limit)).1 = outcome
      at ended refused ⊢
    rcases ended with malformed | ⟨frame, inst, reason, isLast⟩
    · have isMalformed := ParseState.isMalformed_of_mem _ malformed
      cases answer <;> cases refused <;> cases isMalformed
    · rw [List.getLast?_concat] at isLast
      cases isLast
      cases refused
      have isFramed : (frame, inst) ∈
          (before ++ .instruction frame inst :: later).filterMap Event.framed? :=
        List.mem_filterMap.mpr ⟨_, List.mem_append_right _ List.mem_cons_self, rfl⟩
      obtain ⟨aligned, positive, inside⟩ := offers.laid.of_mem isFramed (by decide) Nat.one_pos
      exact ⟨List.mem_cons_self, fun _ => Nat.ne_of_gt positive, aligned, Nat.le_of_lt inside,
        fun atEnd => (Nat.ne_of_lt inside atEnd).elim⟩

end Loader

end SpirvInspector
