import SpirvInspector.Proofs.Decode.Appending
import SpirvInspector.Proofs.Decode.Recursion
import SpirvInspector.Proofs.Parse.Composition
import SpirvInspector.Proofs.Parse.Protocol
import SpirvInspector.Proofs.Parse.Throwing

/-!
# How long parsing takes

Nothing is decoded without reading a word. So each round over the operands of an instruction takes a
word off the limit, also where an operand repeats and keeps its place, and each instruction takes a
word of the module. Here the rounds are counted by a loop that is left behind after a given number
of them.
-/

set_option autoImplicit false

namespace SpirvInspector

variable {σ : Type}

/-- A decode that completes has read a word at least and has appended an operand at least. -/
theorem OperandKind.decodeInto_progress {kind : OperandKind} {held : List Operand} {cursor : Cursor}
    {after : Filling} (done : kind.decodeInto ⟨held, cursor⟩ = (.ok (), after)) :
    ∃ operand more words, 0 < words ∧ words ≤ cursor.limitRemaining ∧
      after = ⟨held ++ operand :: more, cursor.advance words⟩ := by
  have decoded := kind.decode_decodedAs cursor
  rw [decodeInto_eq] at done
  generalize kind.decode cursor = result at decoded done
  cases decoded with
  | @complete operands read groups =>
    have positive := groups.listSize_pos (by simp)
    cases done
    cases operands with
    | nil => nomatch positive
    | cons operand more => exact ⟨operand, more, _, positive, read.within, rfl⟩
  | failed read failed => cases done

namespace Draft

/-- The loop over logical operands, from the one at `index` on, left behind so many rounds. There is
no result where it would have gone on. -/
def loop (logicals : List LogicalOperand) : Nat → Nat → Draft → Option (Except Misfit Draft)
  | 0, index, draft => if logicals.length ≤ index then some (.ok draft) else none
  | rounds + 1, index, draft =>
    match logicals[index]? with
    | none => some (.ok draft)
    | some logical =>
      if draft.cursor.limitReached then
        some (if logical.quantifier = .one then .error (.expected draft.cursor.offset)
          else .ok draft)
      else
        match draft.operand logical.kind with
        | .error misfit => some (.error misfit)
        | .ok next =>
          loop logicals rounds (if logical.quantifier = .zeroOrMore then index else index + 1) next

variable {kind : OperandKind} {draft next : Draft} {words : Nat}

/-- What is read is taken off the limit. -/
theorem limit_of_operand (limited : draft.cursor.limit = some words)
    (read : draft.operand kind = .ok next) :
    ∃ left < words, next.cursor.limit = some left := by
  obtain ⟨taken, positive, within, cursor⟩ := (took_of_operand read).cursor_eq
  rw [Cursor.limitRemaining_of_some limited] at within
  refine ⟨words - taken, by omega, ?_⟩
  rw [cursor, Cursor.advance, limited, Option.map_some]

theorem limitReached_of_some (limited : draft.cursor.limit = some words) :
    draft.cursor.limitReached = true ↔ words = 0 := by
  simp [Cursor.limitReached, limited]

theorem repeated_of_drained (drained : draft.cursor.limitReached = true) (rounds : Nat) :
    draft.repeated kind rounds = .ok draft := by
  cases rounds with
  | zero => rfl
  | succ rounds => rw [repeated, if_pos drained]

/-- As many rounds as there are words are enough, so more of them make no difference. -/
theorem repeated_congr {rounds more : Nat} (limited : draft.cursor.limit = some words)
    (enough : words ≤ rounds) (enoughToo : words ≤ more) :
    draft.repeated kind rounds = draft.repeated kind more := by
  induction rounds generalizing draft words more with
  | zero =>
    have drained := (limitReached_of_some limited).mpr (Nat.le_zero.mp enough)
    rw [repeated_of_drained drained, repeated_of_drained drained]
  | succ rounds inductionHypothesis =>
    by_cases drained : draft.cursor.limitReached = true
    · rw [repeated_of_drained drained, repeated_of_drained drained]
    · have positive := mt (limitReached_of_some limited).mpr drained
      obtain ⟨more, rfl⟩ := Nat.exists_eq_add_one.mpr (show 0 < more by omega)
      rw [repeated, repeated, if_neg drained, if_neg drained]
      cases read : draft.operand kind with
      | error misfit => rfl
      | ok next =>
        obtain ⟨left, fewer, limitedNext⟩ := limit_of_operand limited read
        exact inductionHypothesis limitedNext (by omega) (by omega)

theorem operandList_of_repeats {logical : LogicalOperand} {later : List LogicalOperand}
    (repeats : logical.quantifier = .zeroOrMore) (limited : draft.cursor.limit = some words) :
    operandList (logical :: later) draft = draft.repeated logical.kind words := by
  rw [operandList, limited, Option.getD_some, if_pos repeats]
  split
  · next drained => rw [if_neg (by simp [repeats]), repeated_of_drained drained]
  · rfl

/-- What comes of a logical operand where the limit is not reached: it is read, and others are due
behind it. -/
theorem operandList_of_remains {logical : LogicalOperand} {later : List LogicalOperand}
    (limited : draft.cursor.limit = some words) (remains : draft.cursor.limitReached ≠ true) :
    operandList (logical :: later) draft =
      (draft.operand logical.kind).bind (operandList (due logical later)) := by
  by_cases repeats : logical.quantifier = .zeroOrMore
  · have positive := mt (limitReached_of_some limited).mpr remains
    obtain ⟨rounds, rfl⟩ := Nat.exists_eq_add_one.mpr (Nat.pos_of_ne_zero positive)
    rw [operandList_of_repeats repeats limited, repeated, if_neg remains, due, if_pos repeats]
    cases read : draft.operand logical.kind with
    | error misfit => rfl
    | ok next =>
      obtain ⟨left, fewer, limitedNext⟩ := limit_of_operand limited read
      rw [Except.bind, operandList_of_repeats repeats limitedNext]
      exact repeated_congr limitedNext (Nat.le_of_lt_succ fewer) (Nat.le_refl left)
  · rw [operandList, if_neg remains, if_neg repeats, due, if_neg repeats]
    cases draft.operand logical.kind <;> rfl

theorem drop_due {logicals : List LogicalOperand} {index : Nat} (within : index < logicals.length) :
    logicals.drop (if logicals[index].quantifier = .zeroOrMore then index else index + 1) =
      due logicals[index] (logicals.drop (index + 1)) := by
  rw [due]
  split
  · exact List.drop_eq_getElem_cons within
  · rfl

/-- A round takes a word off the limit or is the last one. -/
theorem loop_eq {logicals : List LogicalOperand} {rounds index : Nat}
    (limited : draft.cursor.limit = some words)
    (enough : logicals.length - index + words ≤ rounds) :
    loop logicals rounds index draft = some (operandList (logicals.drop index) draft) := by
  induction rounds generalizing draft words index with
  | zero =>
    have behind : logicals.length ≤ index := by omega
    rw [loop, if_pos behind, List.drop_eq_nil_of_le behind, operandList]
  | succ rounds inductionHypothesis =>
    by_cases behind : logicals.length ≤ index
    · rw [loop, List.getElem?_eq_none behind, List.drop_eq_nil_of_le behind, operandList]
    · have within := Nat.lt_of_not_le behind
      rw [loop, List.getElem?_eq_getElem within, List.drop_eq_getElem_cons within]
      dsimp only
      by_cases drained : draft.cursor.limitReached = true
      · rw [if_pos drained, operandList, if_pos drained]
      · rw [if_neg drained, operandList_of_remains limited drained, ← drop_due within]
        cases read : draft.operand logicals[index].kind with
        | error misfit => rfl
        | ok next =>
          obtain ⟨left, fewer, limitedNext⟩ := limit_of_operand limited read
          apply inductionHypothesis limitedNext
          split <;> omega

end Draft

theorem Laid.length_le {bytes : Bytes} {offset index : Nat} {entries : List Framed}
    (laid : Laid bytes offset index entries) : 4 * entries.length ≤ bytes.length - offset := by
  induction laid with
  | nil => exact Nat.zero_le _
  | @cons frame inst later holds there others inductionHypothesis =>
    have length := congrArg List.length there
    have window := holds.whole.window
    have positive := holds.whole.positive
    rw [List.length_take, List.length_drop, List.length_append, Word.length_bytes] at length
    rw [List.length_cons]
    omega

/-- Whatever the sink answers, it is called with no more instructions than there are words behind the
header. -/
theorem instructions_le (sink : Sink σ) (state : σ) (bytes : Bytes) :
    ((parse sink.logged (state, []) bytes).2.2.filterMap fun call => call.event.framed?).length ≤
      (bytes.length - Header.byteCount) / 4 := by
  obtain ⟨events, ending, offers⟩ := exists_offers bytes
  obtain ⟨calls, heard, log⟩ := sink.offer_logged ending events state []
  rw [parse_of_offers _ _ offers, log, List.nil_append]
  have called : calls.filterMap (fun call => call.event.framed?) =
      (calls.map Call.event).filterMap Event.framed? := by
    rw [List.filterMap_map]
    rfl
  have fewer := (heard.map_event_prefix.filterMap Event.framed?).length_le
  have all := offers.laid.length_le
  rw [called]
  omega

/-- How the decoding of a kind ends: no kind is met inside of itself, and what completes has read a
word and appended an operand. -/
structure OperandKind.Ends (kind : OperandKind) : Prop where
  straight : ∀ astray, decodeInside astray [] kind = kind.decode
  apart : ∀ met : List OperandKind,
    (kind :: met).IsChain (fun outer inner => inner ∈ outer.references) → (kind :: met).Nodup
  progress : ∀ (held : List Operand) (cursor : Cursor) (after : Filling),
    kind.decodeInto ⟨held, cursor⟩ = (.ok (), after) →
      ∃ operand more words, 0 < words ∧ words ≤ cursor.limitRemaining ∧
        after = ⟨held ++ operand :: more, cursor.advance words⟩

/-- Decoding ends for each kind, the loop over operands for each form and each limit, and parsing for
all bytes. -/
theorem parse_ends :
    (∀ kind : OperandKind, kind.Ends) ∧
    (∀ (form : InstructionForm) (draft : Draft) (words : Nat), draft.cursor.limit = some words →
      Draft.loop form.operands (form.operands.length + words) 0 draft =
        some (Draft.operandList form.operands draft)) ∧
    ∀ (σ : Type) (sink : Sink σ) (state : σ) (bytes : Bytes),
      ((parse sink.logged (state, []) bytes).2.2.filterMap fun call => call.event.framed?).length ≤
        (bytes.length - Header.byteCount) / 4 := by
  refine ⟨fun kind => ⟨?_, ?_, ?_⟩, ?_, ?_⟩
  · intro astray
    exact OperandKind.decodeInside_eq astray (by simp)
  · intro met chain
    exact OperandKind.nodup_of_isChain chain
  · intro held cursor after done
    exact OperandKind.decodeInto_progress done
  · intro form draft words limited
    exact Draft.loop_eq limited (Nat.le_refl (form.operands.length + words))
  · intro σ sink state bytes
    exact instructions_le sink state bytes

/-- A switch before its operands are read: a selector, a default and two cases. -/
def switchDraft : Draft :=
  ⟨none, none, #[], ⟨Word.serialize [7, 8, 1, 9, 2, 10], 24, some 6, .little⟩⟩

theorem parse_ends_switch :
    [OperandKind.pairLiteralIntegerIdRef, .literalInteger].Nodup ∧
    (∃ operand more words, 0 < words ∧ words ≤ switchDraft.cursor.limitRemaining ∧
      OperandKind.pairLiteralIntegerIdRef.decodeInto ⟨[], switchDraft.cursor⟩ =
        (.ok (), ⟨operand :: more, switchDraft.cursor.advance words⟩)) ∧
    (∃ form, InstructionForm.ofOpcode? 251 = some form ∧ switchDraft.cursor.limit = some 6 ∧
      Draft.loop form.operands 9 0 switchDraft =
        some (Draft.operandList form.operands switchDraft)) ∧
    ((parse (Sink.recorder none).logged (#[], []) oneCapability).2.2.filterMap
      fun call => call.event.framed?).length ≤ 2 := by
  obtain ⟨kinds, loops, calls⟩ := parse_ends
  have ends := kinds .pairLiteralIntegerIdRef
  have refers : OperandKind.literalInteger ∈ OperandKind.pairLiteralIntegerIdRef.references := by
    decide
  have decoded : OperandKind.pairLiteralIntegerIdRef.decodeInto ⟨[], switchDraft.cursor⟩ =
      (.ok (), ⟨[⟨.listed .literalInteger, .number32 7⟩, ⟨.listed .idRef, .id 8⟩],
        switchDraft.cursor.advance 2⟩) := by
    rw [OperandKind.decodeInto_eq]
    rfl
  have found : InstructionForm.ofOpcode? 251 =
      some ⟨"OpSwitch", 251, [InstructionForm.ref, InstructionForm.ref,
        InstructionForm.many .pairLiteralIntegerIdRef]⟩ := by
    decide +kernel
  obtain ⟨operand, more, words, positive, within, after⟩ := ends.progress [] _ _ decoded
  refine ⟨ends.apart [.literalInteger] (.cons_cons refers (.singleton _)),
    ⟨operand, more, words, positive, within, ?_⟩, ⟨_, found, rfl, loops _ switchDraft 6 rfl⟩,
    calls _ (.recorder none) #[] oneCapability⟩
  rw [decoded, after]
  rfl

end SpirvInspector
