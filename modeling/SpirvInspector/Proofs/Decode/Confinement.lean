import SpirvInspector.Proofs.Decode.Completeness

/-!
# Decoding is confined to its window

The words up to the limit of a cursor can be cut out of the bytes around them and moved further on.
What is decoded from them stays the same, and only the offsets move along. So nothing that is
decoded depends on the bytes outside of the window, or on how many of them there are.
-/

set_option autoImplicit false

namespace SpirvInspector

def Fault.relocate (distance : Nat) (fault : Fault) : Fault :=
  { fault with offset := fault.offset + distance }

@[simp] theorem Fault.relocate_zero : Fault.relocate 0 = id := rfl

namespace Cursor

/-- The bytes up to the limit. -/
def reach (cursor : Cursor) : Bytes :=
  match cursor.limit with
  | some words => cursor.rest.take (4 * words)
  | none => cursor.rest

/-- The cursor `distance` bytes further on, with nothing behind its limit. -/
def relocate (distance : Nat) (cursor : Cursor) : Cursor :=
  { cursor with
    rest := cursor.reach
    offset := cursor.offset + distance }

variable (cursor : Cursor) (distance : Nat)

theorem limitRemaining_eq_reach : cursor.limitRemaining = cursor.reach.length / 4 := by
  unfold limitRemaining reach
  cases cursor.limit <;> rfl

@[simp] theorem reach_relocate : (cursor.relocate distance).reach = cursor.reach := by
  unfold reach relocate reach
  cases cursor.limit with
  | none => rfl
  | some words => exact List.take_take.trans (by rw [Nat.min_self])

@[simp] theorem limitRemaining_relocate :
    (cursor.relocate distance).limitRemaining = cursor.limitRemaining := by
  rw [limitRemaining_eq_reach, limitRemaining_eq_reach, reach_relocate]

@[simp] theorem limitReached_relocate :
    (cursor.relocate distance).limitReached = cursor.limitReached := rfl

theorem exhaustion_relocate :
    (cursor.relocate distance).exhaustion = cursor.exhaustion.relocate distance := by
  unfold exhaustion
  rw [limitReached_relocate]
  split <;> rfl

theorem advance_relocate (words : Nat) :
    (cursor.relocate distance).advance words = (cursor.advance words).relocate distance := by
  have offset : cursor.offset + distance + 4 * words = cursor.offset + 4 * words + distance := by
    omega
  cases limit : cursor.limit with
  | none => simp [relocate, advance, reach, limit, offset]
  | some bound =>
    have size : 4 * bound - 4 * words = 4 * (bound - words) := by omega
    simp [relocate, advance, reach, limit, offset, List.drop_take, size]

variable {cursor}

theorem take_reach {words : Nat} (within : words ≤ cursor.limitRemaining) :
    cursor.reach.take (4 * words) = cursor.rest.take (4 * words) := by
  unfold reach
  cases limit : cursor.limit with
  | none => rfl
  | some bound =>
    rw [limitRemaining_of_some limit] at within
    exact List.take_take.trans (by rw [Nat.min_eq_left (by omega)])

end Cursor

namespace Reading

variable {α : Type}

/-- A read that is made further on: its fault moves along, and so does the cursor behind it. -/
def relocate (distance : Nat) (reading : Reading α) : Reading α :=
  (reading.1.mapError (Fault.relocate distance), reading.2.relocate distance)

end Reading

namespace Cursor

variable (cursor : Cursor) (distance : Nat)

theorem nextWord_relocate :
    (cursor.relocate distance).nextWord = Reading.relocate distance cursor.nextWord := by
  have remaining := cursor.limitRemaining_relocate distance
  by_cases drained : cursor.limitRemaining = 0
  · rw [nextWord_of_zero drained, nextWord_of_zero (remaining.trans drained), exhaustion_relocate]
    rfl
  · have available : 1 ≤ cursor.limitRemaining := Nat.pos_of_ne_zero drained
    obtain ⟨a, b, c, d, later, bytes, read⟩ := nextWord_of_pos available
    obtain ⟨a', b', c', d', later', bytes', read'⟩ :=
      nextWord_of_pos (Nat.lt_of_lt_of_eq available remaining.symm)
    have first := take_reach available
    rw [show cursor.reach = _ from bytes', bytes] at first
    cases first
    rw [read, read', advance_relocate]
    rfl

theorem nextWords_relocate {words : Nat} (within : words ≤ cursor.limitRemaining) :
    (cursor.relocate distance).nextWords words =
      Reading.relocate distance (cursor.nextWords words) := by
  have withinToo : words ≤ (cursor.relocate distance).limitRemaining := by
    rwa [limitRemaining_relocate]
  have taken : (cursor.relocate distance).rest.take (4 * words) = cursor.rest.take (4 * words) :=
    take_reach within
  rw [nextWords_of_le within, nextWords_of_le withinToo, taken, advance_relocate]
  rfl

theorem nextString_relocate :
    (cursor.relocate distance).nextString = Reading.relocate distance cursor.nextString := by
  have remaining := cursor.limitRemaining_relocate distance
  have taken (words : Nat) (within : words ≤ cursor.limitRemaining) :
      (cursor.relocate distance).rest.take (4 * words) = cursor.rest.take (4 * words) :=
    take_reach within
  have reading := cursor.nextString_reading
  generalize cursor.nextString = read at reading
  cases reading with
  | terminated text filler nulFree within bytes =>
    rw [nextString_of_take nulFree (Nat.le_trans within (Nat.le_of_eq remaining.symm))
      ((taken _ within).trans bytes), advance_relocate]
    rfl
  | unterminated nulFree =>
    have reading := (cursor.relocate distance).nextString_reading
    generalize (cursor.relocate distance).nextString = read at reading
    cases reading with
    | terminated text filler textNulFree within bytes =>
      -- A zero byte in the window would be one among the bytes that hold none.
      rw [remaining] at within
      rw [taken _ within] at bytes
      have isZero : 0 ∈ cursor.rest.take (4 * text.stringWords) := by
        rw [bytes]
        simp
      exact (nulFree (List.take_subset_take_left _ (by omega) isZero)).elim
    | unterminated _ =>
      rw [remaining, advance_relocate, exhaustion_relocate]
      rfl

end Cursor

namespace Decoded

/-- A decode that is made further on. -/
def relocate (distance : Nat) (decoded : Decoded) : Decoded :=
  { decoded with
    cursor := decoded.cursor.relocate distance
    fault := decoded.fault.map (Fault.relocate distance) }

variable {distance : Nat}

theorem ofReading_relocate {α : Type} (kind : OperandKind) (value : α → OperandValue)
    (reading : Reading α) :
    ofReading kind value (Reading.relocate distance reading) =
      (ofReading kind value reading).relocate distance := by
  rcases reading with ⟨_ | _, cursor⟩ <;> rfl

theorem andThen_relocate (decoded : Decoded) {next : Cursor → Decoded}
    (moves : ∀ cursor : Cursor, next (cursor.relocate distance) = (next cursor).relocate distance) :
    (decoded.relocate distance).andThen next = (decoded.andThen next).relocate distance := by
  rcases decoded with ⟨operands, cursor, _ | fault⟩
  · simp only [andThen, relocate, Option.map_none, moves]
  · rfl

theorem sequence_relocate {decode : OperandKind → Cursor → Decoded}
    (moves : ∀ kind (cursor : Cursor),
      decode kind (cursor.relocate distance) = (decode kind cursor).relocate distance)
    (kinds : List OperandKind) (cursor : Cursor) :
    sequence decode kinds (cursor.relocate distance) =
      (sequence decode kinds cursor).relocate distance := by
  induction kinds generalizing cursor with
  | nil => rfl
  | cons kind kinds inductionHypothesis =>
    rw [sequence, sequence, moves]
    exact andThen_relocate _ inductionHypothesis

end Decoded

namespace OperandKind

variable {distance : Nat}

theorem decodeContextNumber_relocate (kind : OperandKind) (cursor : Cursor) :
    kind.decodeContextNumber (cursor.relocate distance) =
      (kind.decodeContextNumber cursor).relocate distance := by
  unfold decodeContextNumber
  rw [Cursor.limitRemaining_relocate]
  split
  · rw [Cursor.nextWord_relocate, Decoded.ofReading_relocate]
  · rw [Cursor.nextWord_relocate, Decoded.ofReading_relocate]
  · next two =>
    have available : 2 ≤ cursor.limitRemaining := by omega
    rw [Cursor.nextWords_relocate _ _ available]
    rcases cursor.nextWords 2 with ⟨_ | _, behind⟩ <;> rfl
  · rfl

theorem decodeEnumerated_relocate {decode : OperandKind → Cursor → Decoded}
    (moves : ∀ kind (cursor : Cursor),
      decode kind (cursor.relocate distance) = (decode kind cursor).relocate distance)
    (kind : OperandKind) (values : UInt32 → List UInt32) (cursor : Cursor) :
    kind.decodeEnumerated decode values (cursor.relocate distance) =
      (kind.decodeEnumerated decode values cursor).relocate distance := by
  unfold decodeEnumerated
  rw [Cursor.nextWord_relocate]
  rcases cursor.nextWord with ⟨fault | word, behind⟩
  · rfl
  · dsimp only [Reading.relocate, Except.mapError]
    cases kind.enumerantsOf (values word) with
    | error unknown => rfl
    | ok enumerants =>
      exact Decoded.andThen_relocate ⟨[⟨.listed kind, .enumerated word⟩], behind, none⟩
        (Decoded.sequence_relocate moves _)

theorem decodeWith_relocate {decode : OperandKind → Cursor → Decoded}
    (moves : ∀ kind (cursor : Cursor),
      decode kind (cursor.relocate distance) = (decode kind cursor).relocate distance)
    (kind : OperandKind) (cursor : Cursor) :
    decodeWith decode kind (cursor.relocate distance) =
      (decodeWith decode kind cursor).relocate distance := by
  unfold decodeWith
  split
  · rw [Cursor.nextWord_relocate, Decoded.ofReading_relocate]
  · rw [Cursor.nextWord_relocate, Decoded.ofReading_relocate]
  · exact decodeContextNumber_relocate kind cursor
  · rw [Cursor.nextString_relocate, Decoded.ofReading_relocate]
  · exact decodeEnumerated_relocate moves kind setBits cursor
  · exact decodeEnumerated_relocate moves kind _ cursor
  · exact Decoded.sequence_relocate moves _ cursor

theorem decodeNested_relocate (depth : Nat) (kind : OperandKind) (cursor : Cursor) :
    decodeNested depth kind (cursor.relocate distance) =
      (decodeNested depth kind cursor).relocate distance := by
  induction depth generalizing kind cursor with
  | zero => exact decodeWith_relocate (fun _ _ => rfl) kind cursor
  | succ depth inductionHypothesis => exact decodeWith_relocate inductionHypothesis kind cursor

/-- Decoding a window that was cut out and moved gives what decoding it in place gives. -/
theorem decode_relocate (kind : OperandKind) (cursor : Cursor) :
    kind.decode (cursor.relocate distance) = (kind.decode cursor).relocate distance :=
  decodeNested_relocate kind.rank kind cursor

end OperandKind

/-- `cursor.Covers words`: the limit is so many words away, and all of them are there. -/
structure Cursor.Covers (cursor : Cursor) (words : Nat) : Prop where
  limited : cursor.limit = some words
  long : 4 * words ≤ cursor.rest.length

namespace Cursor.Covers

variable {cursor : Cursor} {words : Nat}

theorem limitRemaining (covers : cursor.Covers words) : cursor.limitRemaining = words := by
  rw [limitRemaining_of_some covers.limited]
  have long := covers.long
  omega

theorem advance (covers : cursor.Covers words) (read : Nat) :
    (cursor.advance read).Covers (words - read) := by
  obtain ⟨limited, long⟩ := covers
  constructor
  · rw [Cursor.advance, limited, Option.map_some]
  · rw [rest_advance, List.length_drop]
    omega

/-- Where all words are there, it is the limit that ends them. -/
theorem exhaustion_code (covers : cursor.Covers words) :
    (cursor.advance words).exhaustion.code = .limitReached := by
  have drained := (covers.advance words).limited
  rw [Nat.sub_self] at drained
  rw [exhaustion, limitReached, drained]
  rfl

end Cursor.Covers

namespace HeadFault

variable {kind : OperandKind} {cursor : Cursor} {fault : Fault} {read words : Nat}

theorem within (failed : HeadFault kind cursor fault read) : read ≤ cursor.limitRemaining := by
  cases failed with
  | exhausted unread => exact Nat.le_refl _
  | unknown isEnumerated available => exact available
  | tooWide shape wide => exact Nat.zero_le _

theorem code_ne (failed : HeadFault kind cursor fault read) (covers : cursor.Covers words) :
    fault.code ≠ .streamExpected := by
  cases failed with
  | exhausted unread =>
    rw [covers.limitRemaining, covers.exhaustion_code]
    exact FaultCode.noConfusion
  | unknown => exact FaultCode.noConfusion
  | tooWide => exact FaultCode.noConfusion

end HeadFault

/-- A decode stays within the words that are there, and never misses any. -/
theorem DecodedAs.confined {kinds : List OperandKind} {cursor : Cursor} {words : Nat}
    {decoded : Decoded} (decodedAs : DecodedAs kinds cursor decoded)
    (covers : cursor.Covers words) :
    (∃ read ≤ words, decoded.cursor = cursor.advance read) ∧
      ∀ fault, decoded.fault = some fault → fault.code ≠ .streamExpected := by
  cases decodedAs with
  | complete read groups =>
    refine ⟨⟨_, ?_, rfl⟩, ?_⟩
    · rw [← covers.limitRemaining]
      exact read.within
    · intro fault isFault
      cases isFault
  | @failed operands kind fault behind read failed =>
    have front := read.within
    have back := failed.within
    rw [Cursor.limitRemaining_advance] at back
    refine ⟨⟨_, ?_, rfl⟩, ?_⟩
    · rw [← covers.limitRemaining]
      omega
    · intro _ isFault
      cases isFault
      exact failed.code_ne (covers.advance _)

/-- Two cursors that stand at the same offset with the same limit. The words up to the limit are
there for both of them and are the same; the bytes behind may be any. -/
structure SameWindow (one other : Cursor) (words : Nat) : Prop where
  offset : one.offset = other.offset
  order : one.order = other.order
  covers : one.Covers words
  coversToo : other.Covers words
  agree : one.rest.take (4 * words) = other.rest.take (4 * words)

namespace SameWindow

variable {one other : Cursor} {words : Nat}

theorem relocate_eq (same : SameWindow one other words) (distance : Nat) :
    one.relocate distance = other.relocate distance := by
  obtain ⟨offset, order, ⟨limited, -⟩, ⟨limitedToo, -⟩, agree⟩ := same
  unfold Cursor.relocate Cursor.reach
  rw [offset, order, limited, limitedToo]
  exact congrArg (fun bytes => Cursor.mk bytes _ _ _) agree

theorem advance (same : SameWindow one other words) (read : Nat) :
    SameWindow (one.advance read) (other.advance read) (words - read) where
  offset := congrArg (· + 4 * read) same.offset
  order := same.order
  covers := same.covers.advance read
  coversToo := same.coversToo.advance read
  agree := by
    have size : 4 * (words - read) = 4 * words - 4 * read := by omega
    rw [Cursor.rest_advance, Cursor.rest_advance, size, ← List.drop_take, ← List.drop_take,
      same.agree]

end SameWindow

/-- Decoding in one window has one outcome: it reads the same words whatever stands around them,
goes no further than the limit, and finds no word missing. -/
theorem decode_confined (kind : OperandKind) {one other : Cursor} {words : Nat}
    (same : SameWindow one other words) :
    (kind.decode one).operands = (kind.decode other).operands ∧
      (kind.decode one).fault = (kind.decode other).fault ∧
      (∃ read ≤ words, (kind.decode one).cursor.offset = one.offset + 4 * read ∧
        SameWindow (kind.decode one).cursor (kind.decode other).cursor (words - read)) ∧
      ∀ fault, (kind.decode one).fault = some fault → fault.code ≠ .streamExpected := by
  have moved : (kind.decode one).relocate 0 = (kind.decode other).relocate 0 := by
    rw [← OperandKind.decode_relocate, ← OperandKind.decode_relocate, same.relocate_eq]
  have operands := congrArg Decoded.operands moved
  have faults := congrArg Decoded.fault moved
  have offsets := congrArg (fun decoded => decoded.cursor.offset) moved
  obtain ⟨⟨read, within, cursor⟩, neverMissing⟩ := (kind.decode_decodedAs one).confined same.covers
  obtain ⟨⟨readToo, -, cursorToo⟩, -⟩ := (kind.decode_decodedAs other).confined same.coversToo
  have sameRead : read = readToo := by
    have start := same.offset
    simp only [Decoded.relocate, Cursor.relocate, cursor, cursorToo, Cursor.offset_advance]
      at offsets
    omega
  subst sameRead
  refine ⟨operands, ?_, ⟨read, within, ?_, ?_⟩, neverMissing⟩
  · simpa [Decoded.relocate] using faults
  · rw [cursor, Cursor.offset_advance]
  · rw [cursor, cursorToo]
    exact same.advance read

/-- An execution mode that requires three numbers, the last of which is behind the third word. -/
def cutLocalSize : Bytes :=
  [0, 0, 0, 17, 0, 0, 0, 1, 0, 0, 0, 2]

theorem decode_cutLocalSize :
    SameWindow ⟨cutLocalSize, 24, some 3, .big⟩
        ⟨cutLocalSize ++ [0, 0, 0, 3, 9], 24, some 3, .big⟩ 3 ∧
      (OperandKind.executionMode.decode
        ⟨cutLocalSize ++ [0, 0, 0, 3, 9], 24, some 3, .big⟩).fault =
          some (.limitReached 36) := by
  have same : SameWindow ⟨cutLocalSize, 24, some 3, .big⟩
      ⟨cutLocalSize ++ [0, 0, 0, 3, 9], 24, some 3, .big⟩ 3 :=
    ⟨rfl, rfl, ⟨rfl, by decide⟩, ⟨rfl, by decide⟩, rfl⟩
  obtain ⟨-, fault, -⟩ := decode_confined .executionMode same
  refine ⟨same, ?_⟩
  rw [← fault]
  decide +kernel

end SpirvInspector
