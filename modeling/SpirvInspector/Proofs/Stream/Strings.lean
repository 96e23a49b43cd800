import SpirvInspector.Proofs.Stream.Reading

/-!
# Where a string ends

A string is read from the words that remain, which the limit and the end of the bytes bound. It ends
in front of the first zero byte among them, and uses up the word of this byte. If there is none, all
of these words are used up, and the fault tells which of the two bounds was met.
-/

set_option autoImplicit false

namespace SpirvInspector

namespace Cursor

/-- A limit is met before the bytes run out if it is no longer than they are. -/
theorem exhaustion_drained (cursor : Cursor) :
    (cursor.advance cursor.limitRemaining).exhaustion =
      if cursor.limit.any (· ≤ cursor.bytesLeft / 4) then
        .limitReached (cursor.offset + 4 * cursor.limitRemaining)
      else .streamExpected (cursor.offset + 4 * cursor.limitRemaining) := by
  have met : (cursor.advance cursor.limitRemaining).limitReached =
      cursor.limit.any (· ≤ cursor.bytesLeft / 4) := by
    cases limit : cursor.limit with
    | none => simp [limitReached, advance, limit]
    | some words =>
      have drained : words - min words (cursor.rest.length / 4) = 0 ↔
          words ≤ cursor.rest.length / 4 := by omega
      rw [limitRemaining_of_some limit, Bool.eq_iff_iff]
      simp only [limitReached, advance, limit, bytesLeft, Option.map_some, Option.any_some,
        beq_iff_eq, Option.some.injEq]
      exact drained.trans decide_eq_true_iff.symm
  rw [exhaustion, met]
  rfl

/-- What remains begins with a string and the zero byte behind it. -/
theorem idxOf_of_take {cursor : Cursor} {text filler : Bytes} (nulFree : 0 ∉ text)
    (within : text.stringWords ≤ cursor.limitRemaining)
    (bytes : cursor.rest.take (4 * text.stringWords) = text ++ 0 :: filler) :
    0 ∈ cursor.rest.take (4 * cursor.limitRemaining) ∧
      (cursor.rest.take (4 * cursor.limitRemaining)).idxOf 0 = text.length ∧
      cursor.rest.take text.length = text := by
  have begins : text ++ 0 :: filler <+: cursor.rest.take (4 * cursor.limitRemaining) := by
    rw [← bytes]
    exact List.take_prefix_take_left (by omega)
  obtain ⟨later, window⟩ := begins
  have whole : text ++ 0 :: filler <+: cursor.rest := by
    rw [← bytes]
    exact List.take_prefix _ _
  refine ⟨?_, ?_, ?_⟩
  · rw [← window]
    simp
  · rw [← window, List.append_assoc, List.idxOf_append, if_neg nulFree, List.cons_append,
      List.idxOf_cons_self, Nat.zero_add]
  · exact (List.prefix_iff_eq_take.mp ((List.prefix_append _ _).trans whole)).symm

/-- A string ends in front of the first zero byte of the words that remain, and its last word is
the one with this byte. Without such a byte these words are used up, and the fault stands behind
them. -/
theorem nextString_exact (cursor : Cursor) :
    let words := cursor.limitRemaining
    let window := cursor.rest.take (4 * words)
    let length := window.idxOf 0
    let behind := cursor.offset + 4 * words
    if 0 ∈ window then
      length / 4 + 1 ≤ words ∧
        cursor.nextString = (.ok (cursor.rest.take length), cursor.advance (length / 4 + 1))
    else
      cursor.nextString =
        (.error (if cursor.limit.any (· ≤ cursor.bytesLeft / 4) then .limitReached behind
          else .streamExpected behind), cursor.advance words) := by
  intro words window length behind
  have reading := cursor.nextString_reading
  generalize cursor.nextString = read at reading ⊢
  cases reading with
  | terminated text filler nulFree within bytes =>
    obtain ⟨isZero, isLength, isText⟩ := idxOf_of_take nulFree within bytes
    rw [if_pos isZero]
    simp only [length, window, words, isLength, isText]
    exact ⟨within, rfl⟩
  | unterminated nulFree =>
    rw [if_neg nulFree, exhaustion_drained]

/-- The zero byte may be the first one of the last word. -/
example :
    nextString ⟨ascii "main" ++ [0, 0, 0, 0, 7, 7, 7, 7], 8, some 3, .big⟩ =
      (.ok (ascii "main"), ⟨[7, 7, 7, 7], 16, some 1, .big⟩) := rfl

end Cursor

end SpirvInspector
