import SpirvInspector.Proofs.Stream.Words
import SpirvInspector.Stream.Cursor

/-!
# What a read does to a cursor

Every read, failed or not, leaves the cursor some number of words further on and never beyond the
words that remain. A read fails for want of words only where none remain, and the fault then names
the place the cursor has come to.
-/

set_option autoImplicit false

namespace SpirvInspector

namespace Bytes

/-- The words that a string fills, together with the zero byte behind it. -/
def stringWords (text : Bytes) : Nat :=
  text.length / 4 + 1

theorem stringWords_cons (a b c d : UInt8) (text : Bytes) :
    stringWords (a :: b :: c :: d :: text) = 1 + stringWords text := by
  simp only [stringWords, List.length_cons]
  omega

theorem take_word (a b c d : UInt8) (later : Bytes) (words : Nat) :
    (a :: b :: c :: d :: later).take (4 * (1 + words)) =
      a :: b :: c :: d :: later.take (4 * words) := by
  have split : 4 * (1 + words) = 4 * words + 4 := by omega
  rw [split]
  rfl

end Bytes

namespace Cursor

@[simp] theorem advance_zero (cursor : Cursor) : cursor.advance 0 = cursor := by
  cases cursor with
  | mk rest offset limit order => cases limit <;> simp [advance]

@[simp] theorem advance_advance (cursor : Cursor) (first second : Nat) :
    (cursor.advance first).advance second = cursor.advance (first + second) := by
  cases cursor with
  | mk rest offset limit order =>
    cases limit <;> simp [advance, Nat.mul_add, Nat.add_assoc, Nat.sub_sub]

@[simp] theorem offset_advance (cursor : Cursor) (words : Nat) :
    (cursor.advance words).offset = cursor.offset + 4 * words := rfl

@[simp] theorem rest_advance (cursor : Cursor) (words : Nat) :
    (cursor.advance words).rest = cursor.rest.drop (4 * words) := rfl

theorem limitRemaining_of_some {cursor : Cursor} {words : Nat}
    (limited : cursor.limit = some words) :
    cursor.limitRemaining = min words (cursor.rest.length / 4) := by
  rw [limitRemaining_eq, limited, bytesLeft]

theorem limitRemaining_of_none {cursor : Cursor} (unlimited : cursor.limit = none) :
    cursor.limitRemaining = cursor.rest.length / 4 := by
  rw [limitRemaining_eq, unlimited, bytesLeft]

@[simp] theorem limitRemaining_advance (cursor : Cursor) (words : Nat) :
    (cursor.advance words).limitRemaining = cursor.limitRemaining - words := by
  cases limit : cursor.limit with
  | none =>
    have behind : (cursor.advance words).limit = none := by simp [advance, limit]
    rw [limitRemaining_of_none behind, limitRemaining_of_none limit, rest_advance, List.length_drop]
    omega
  | some bound =>
    have behind : (cursor.advance words).limit = some (bound - words) := by simp [advance, limit]
    rw [limitRemaining_of_some behind, limitRemaining_of_some limit, rest_advance, List.length_drop]
    omega

theorem length_of_limitRemaining (cursor : Cursor) :
    4 * cursor.limitRemaining ≤ cursor.rest.length := by
  cases limit : cursor.limit with
  | none =>
    rw [limitRemaining_of_none limit]
    omega
  | some words =>
    rw [limitRemaining_of_some limit]
    omega

theorem limitRemaining_eq_zero_iff (cursor : Cursor) :
    cursor.limitRemaining = 0 ↔ cursor.limitReached = true ∨ cursor.rest.length < 4 := by
  cases limit : cursor.limit with
  | none =>
    rw [limitRemaining_of_none limit, limitReached, limit]
    simp
  | some words =>
    rw [limitRemaining_of_some limit, limitReached, limit]
    simp

/-- The fault of reading on where nothing remains. -/
def exhaustion (cursor : Cursor) : Fault :=
  if cursor.limitReached then .limitReached cursor.offset else .streamExpected cursor.offset

theorem nextWord_of_pos {cursor : Cursor} (available : 0 < cursor.limitRemaining) :
    ∃ a b c d later, cursor.rest = a :: b :: c :: d :: later ∧
      cursor.nextWord = (.ok (.ofStream cursor.order a b c d), cursor.advance 1) := by
  have remains := mt (cursor.limitRemaining_eq_zero_iff).mpr (by omega)
  rw [not_or] at remains
  obtain ⟨unreached, long⟩ := remains
  obtain ⟨a, b, c, d, later, bytes⟩ := Bytes.exists_word (Nat.le_of_not_lt long)
  refine ⟨a, b, c, d, later, bytes, ?_⟩
  simp [nextWord, peekWord, unreached, bytes]

theorem nextWord_of_zero {cursor : Cursor} (drained : cursor.limitRemaining = 0) :
    cursor.nextWord = (.error cursor.exhaustion, cursor) := by
  rw [nextWord, peekWord, exhaustion]
  rcases cursor.limitRemaining_eq_zero_iff.mp drained with reached | short
  · simp [reached]
  · cases reached : cursor.limitReached with
    | true => simp
    | false =>
      match bytes : cursor.rest with
      | a :: b :: c :: d :: later =>
        simp [bytes] at short
        omega
      | [] | [_] | [_, _] | [_, _, _] => simp

theorem nextWord_cases (cursor : Cursor) :
    (0 < cursor.limitRemaining ∧ ∃ word, cursor.nextWord = (.ok word, cursor.advance 1) ∧
      (cursor.order = .little → cursor.rest.take 4 = word.bytes)) ∨
    (cursor.limitRemaining = 0 ∧ cursor.nextWord = (.error cursor.exhaustion, cursor)) := by
  rcases Nat.eq_zero_or_pos cursor.limitRemaining with drained | available
  · exact .inr ⟨drained, nextWord_of_zero drained⟩
  · obtain ⟨a, b, c, d, later, bytes, read⟩ := nextWord_of_pos available
    refine .inl ⟨available, _, read, ?_⟩
    intro little
    rw [bytes, little, Word.bytes_ofStream]
    rfl

theorem nextWord_of_bytes {cursor : Cursor} {word : Word} {later : Bytes}
    (available : 0 < cursor.limitRemaining) (little : cursor.order = .little)
    (bytes : cursor.rest = word.bytes ++ later) :
    cursor.nextWord = (.ok word, cursor.advance 1) := by
  obtain ⟨a, b, c, d, behind, rest, read⟩ := nextWord_of_pos available
  obtain ⟨a', b', c', d', wordBytes, stands⟩ := word.exists_bytes
  rw [rest, wordBytes] at bytes
  simp only [List.cons_append, List.nil_append, List.cons.injEq] at bytes
  obtain ⟨rfl, rfl, rfl, rfl, -⟩ := bytes
  rw [read, little, stands]

theorem refusal_eq_none_iff (cursor : Cursor) (words : Nat) :
    cursor.refusal words = none ↔ words ≤ cursor.limitRemaining := by
  have enough : cursor.rest.hasAtLeast (4 * words) = true ↔ words ≤ cursor.rest.length / 4 := by
    rw [Bytes.hasAtLeast_iff]
    omega
  rw [refusal, limitRemaining_eq, bytesLeft]
  cases cursor.limit with
  | none => simp [enough]
  | some limit =>
    by_cases beyond : limit < words
    · simp only [Option.any_some, beyond, decide_true, if_true, reduceCtorEq, false_iff]
      omega
    · have within : words ≤ min limit (cursor.rest.length / 4) ↔
          words ≤ cursor.rest.length / 4 := by omega
      rw [within, ← enough]
      simp [beyond]

theorem nextWords_of_le {cursor : Cursor} {words : Nat}
    (available : words ≤ cursor.limitRemaining) :
    cursor.nextWords words =
      (.ok (Word.ofBytes cursor.order (cursor.rest.take (4 * words))), cursor.advance words) := by
  rw [nextWords, (cursor.refusal_eq_none_iff words).mpr available]

/-- How a string behind `before` can be read: it ends within the words that remain, or all of them
go by without a zero byte. -/
inductive StringReading (cursor : Cursor) (before : Bytes) : Reading Bytes → Prop
  | terminated (text filler : Bytes) (nulFree : 0 ∉ text)
      (within : text.stringWords ≤ cursor.limitRemaining)
      (bytes : cursor.rest.take (4 * text.stringWords) = text ++ 0 :: filler) :
      StringReading cursor before (.ok (before ++ text), cursor.advance text.stringWords)
  | unterminated (nulFree : 0 ∉ cursor.rest.take (4 * cursor.limitRemaining)) :
      StringReading cursor before (.error (cursor.advance cursor.limitRemaining).exhaustion,
        cursor.advance cursor.limitRemaining)

namespace StringReading

theorem drained {cursor : Cursor} {before : Bytes} (empty : cursor.limitRemaining = 0) :
    StringReading cursor before (.error cursor.exhaustion, cursor) := by
  have read : StringReading cursor before _ := unterminated (by simp [empty])
  simpa [empty] using read

theorem here {cursor : Cursor} {before later whole : Bytes} (text filler : Bytes)
    (nulFree : 0 ∉ text) (word : (text ++ 0 :: filler).length = 4)
    (bytes : cursor.rest = text ++ 0 :: filler ++ later) (available : 0 < cursor.limitRemaining)
    (assembled : before ++ text = whole) :
    StringReading cursor before (.ok whole, cursor.advance 1) := by
  have one : text.stringWords = 1 := by
    simp only [List.length_append, List.length_cons] at word
    simp only [Bytes.stringWords]
    omega
  rw [← assembled, ← one]
  apply terminated text filler nulFree (by omega)
  rw [one, bytes]
  exact List.take_left' word

theorem later {cursor : Cursor} {before later : Bytes} {a b c d : UInt8} {reading : Reading Bytes}
    (nulFree : 0 ∉ [a, b, c, d]) (bytes : cursor.rest = a :: b :: c :: d :: later)
    (available : 0 < cursor.limitRemaining)
    (read : StringReading (cursor.advance 1) (before ++ [a, b, c, d]) reading) :
    StringReading cursor before reading := by
  cases read with
  | terminated text filler textNulFree within textBytes =>
    have longer : StringReading cursor before _ :=
      terminated (a :: b :: c :: d :: text) filler
        (by simp_all)
        (by rw [Bytes.stringWords_cons]; simp at within; omega)
        (by
          rw [Bytes.stringWords_cons, bytes, Bytes.take_word]
          simpa [bytes] using textBytes)
    simpa [Bytes.stringWords_cons] using longer
  | unterminated restNulFree =>
    have behindNulFree : 0 ∉ later.take (4 * (cursor.limitRemaining - 1)) := by
      simpa [bytes] using restNulFree
    have allNulFree : 0 ∉ a :: b :: c :: d :: later.take (4 * (cursor.limitRemaining - 1)) := by
      simp_all
    have words : cursor.limitRemaining = 1 + (cursor.limitRemaining - 1) := by omega
    rw [← Bytes.take_word, ← words, ← bytes] at allNulFree
    have longer : StringReading cursor before _ := unterminated allNulFree
    rw [limitRemaining_advance, advance_advance, ← words]
    exact longer

end StringReading

theorem limitRemaining_pos {order : ByteOrder} {a b c d : UInt8} {rest : Bytes} {offset : Nat}
    {limit : Option Nat} (unreached : limit = some 0 → False) :
    0 < limitRemaining ⟨a :: b :: c :: d :: rest, offset, limit, order⟩ := by
  rw [Nat.pos_iff_ne_zero, Ne, limitRemaining_eq_zero_iff]
  simpa [limitReached] using unreached

theorem scanString_reading (order : ByteOrder) (rest : Bytes) (offset : Nat) (limit : Option Nat)
    (before : Bytes) :
    StringReading ⟨rest, offset, limit, order⟩ before.reverse
      (scanString order rest offset limit before) := by
  fun_induction scanString order rest offset limit before with
  | case1 rest offset before => exact .drained (limitRemaining_eq_zero_iff _ |>.mpr (.inl rfl))
  | case2 b c d rest offset limit before unreached =>
    exact .here [] [b, c, d] (by simp) rfl rfl (limitRemaining_pos unreached) (by simp)
  | case3 a c d rest offset limit before unreached behind aNonzero =>
    exact .here [a] [c, d] (by simp [Ne.symm aNonzero]) rfl rfl (limitRemaining_pos unreached)
      (by simp)
  | case4 a b d rest offset limit before unreached behind aNonzero bNonzero =>
    exact .here [a, b] [d] (by simp [Ne.symm aNonzero, Ne.symm bNonzero]) rfl rfl
      (limitRemaining_pos unreached) (by simp)
  | case5 a b c rest offset limit before unreached behind aNonzero bNonzero cNonzero =>
    exact .here [a, b, c] [] (by simp [Ne.symm aNonzero, Ne.symm bNonzero, Ne.symm cNonzero]) rfl
      rfl (limitRemaining_pos unreached) (by simp)
  | case6 a b c d rest offset limit before unreached aNonzero bNonzero cNonzero dNonzero
      inductionHypothesis =>
    have nulFree : 0 ∉ [a, b, c, d] := by
      simp [Ne.symm aNonzero, Ne.symm bNonzero, Ne.symm cNonzero, Ne.symm dNonzero]
    apply StringReading.later nulFree rfl (limitRemaining_pos unreached)
    simpa [advance] using inductionHypothesis
  | case7 rest offset limit before unreached short =>
    have reached : limitReached ⟨rest, offset, limit, order⟩ = false := by
      simpa [limitReached] using unreached
    have few : rest.length < 4 := by
      apply Nat.lt_of_not_le
      intro long
      obtain ⟨a, b, c, d, later, bytes⟩ := Bytes.exists_word long
      exact short a b c d later bytes
    have read : StringReading ⟨rest, offset, limit, order⟩ before.reverse _ :=
      .drained (limitRemaining_eq_zero_iff _ |>.mpr (.inr few))
    simpa [exhaustion, reached] using read

theorem nextString_reading (cursor : Cursor) : StringReading cursor [] cursor.nextString :=
  scanString_reading cursor.order cursor.rest cursor.offset cursor.limit []

/-- A little-endian cursor over whole words, all of which are within its limit. -/
structure Windowed (cursor : Cursor) : Prop where
  little : cursor.order = .little
  whole : cursor.rest.length = 4 * cursor.limitRemaining
  limited : cursor.limit = some cursor.limitRemaining

namespace Windowed

variable {cursor : Cursor}

theorem advance (windowed : cursor.Windowed) (words : Nat) : (cursor.advance words).Windowed := by
  obtain ⟨little, whole, limited⟩ := windowed
  refine ⟨little, ?_, ?_⟩
  · rw [rest_advance, List.length_drop, limitRemaining_advance]
    omega
  · rw [limitRemaining_advance, Cursor.advance, limited, Option.map_some]

theorem limitReached_iff (windowed : cursor.Windowed) :
    cursor.limitReached = true ↔ cursor.limitRemaining = 0 := by
  rw [limitReached, windowed.limited]
  simp

theorem limitReached_eq_false_iff (windowed : cursor.Windowed) :
    cursor.limitReached = false ↔ 0 < cursor.limitRemaining := by
  rw [← Bool.not_eq_true, windowed.limitReached_iff, Nat.pos_iff_ne_zero]

theorem exhaustion_eq (windowed : cursor.Windowed) :
    (cursor.advance cursor.limitRemaining).exhaustion =
      .limitReached (cursor.offset + 4 * cursor.limitRemaining) := by
  have drained : (cursor.advance cursor.limitRemaining).limitReached = true := by
    rw [(windowed.advance _).limitReached_iff, limitRemaining_advance, Nat.sub_self]
  rw [exhaustion, drained]
  rfl

end Windowed

end Cursor

end SpirvInspector
