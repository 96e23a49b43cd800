import SpirvInspector.Proofs.Stream.Reading
import SpirvInspector.Proofs.Stream.Shifts

/-!
# Words read in parts

The words of a stream are asked for one at a time or several at once. However they are divided among
the calls, the same words come in the same order, and the cursor ends up at the same place. A call
that asks for more than remains ends the reading.
-/

set_option autoImplicit false

namespace SpirvInspector

namespace Cursor

/-- A call for words. -/
inductive Request
  | word
  | words (count : Nat)
deriving DecidableEq

namespace Request

def count : Request → Nat
  | word => 1
  | words count => count

def answer (cursor : Cursor) : Request → Reading (List Word)
  | word =>
    match cursor.nextWord with
    | (.ok next, behind) => (.ok [next], behind)
    | (.error fault, behind) => (.error fault, behind)
  | words count => cursor.nextWords count

/-- How many words some calls ask for together. -/
def total : List Request → Nat
  | [] => 0
  | request :: later => request.count + total later

end Request

/-- All the words that are asked for, call by call, up to the first fault. -/
def takeAll : List Request → Cursor → Reading (List Word)
  | [], cursor => (.ok [], cursor)
  | request :: later, cursor =>
    match request.answer cursor with
    | (.error fault, behind) => (.error fault, behind)
    | (.ok words, behind) =>
      match takeAll later behind with
      | (.error fault, last) => (.error fault, last)
      | (.ok more, last) => (.ok (words ++ more), last)

variable {cursor behind : Cursor}

theorem answer_of_le {request : Request} (available : request.count ≤ cursor.limitRemaining) :
    request.answer cursor =
      (.ok (Word.ofBytes cursor.order (cursor.rest.take (4 * request.count))),
        cursor.advance request.count) := by
  cases request with
  | word =>
    obtain ⟨a, b, c, d, later, bytes, read⟩ := nextWord_of_pos available
    rw [Request.answer, read, bytes]
    rfl
  | words count => exact nextWords_of_le available

theorem answer_of_lt {request : Request} (short : cursor.limitRemaining < request.count) :
    ∃ fault, request.answer cursor = (.error fault, cursor) := by
  cases request with
  | word =>
    have drained : cursor.limitRemaining = 0 := Nat.lt_one_iff.mp short
    exact ⟨cursor.exhaustion, by rw [Request.answer, nextWord_of_zero drained]⟩
  | words count =>
    cases refused : cursor.refusal count with
    | some fault => exact ⟨fault, by rw [Request.answer, nextWords, refused]⟩
    | none =>
      have available := (cursor.refusal_eq_none_iff count).mp refused
      exact absurd short (Nat.not_lt_of_le available)

/-- The words of two reads on end are those of one. -/
theorem ofBytes_take_add {first second : Nat} (order : ByteOrder) {bytes : Bytes}
    (available : 4 * first ≤ bytes.length) :
    Word.ofBytes order (bytes.take (4 * (first + second))) =
      Word.ofBytes order (bytes.take (4 * first)) ++
        Word.ofBytes order ((bytes.drop (4 * first)).take (4 * second)) := by
  have whole : (bytes.take (4 * first)).length = 4 * first := List.length_take_of_le available
  rw [Nat.mul_add, List.take_add, Word.ofBytes_append order whole]

/-- Calls that do not ask for too much are answered like a single one. -/
theorem takeAll_of_le {requests : List Request}
    (available : Request.total requests ≤ cursor.limitRemaining) :
    takeAll requests cursor =
      (.ok (Word.ofBytes cursor.order (cursor.rest.take (4 * Request.total requests))),
        cursor.advance (Request.total requests)) := by
  induction requests generalizing cursor with
  | nil =>
    rw [takeAll, Request.total, advance_zero]
    rfl
  | cons request later inductionHypothesis =>
    rw [Request.total] at available ⊢
    have enough := cursor.length_of_limitRemaining
    have first : request.answer cursor = _ := answer_of_le (by omega)
    have others : takeAll later (cursor.advance request.count) = _ :=
      inductionHypothesis (by rw [limitRemaining_advance]; omega)
    rw [takeAll, first]
    dsimp only
    rw [others, advance_advance, ofBytes_take_add cursor.order (by omega)]
    rfl

theorem total_le_of_takeAll {requests : List Request} {words : List Word}
    (read : takeAll requests cursor = (.ok words, behind)) :
    Request.total requests ≤ cursor.limitRemaining := by
  induction requests generalizing cursor words behind with
  | nil => exact Nat.zero_le _
  | cons request later inductionHypothesis =>
    rw [Request.total]
    rw [takeAll] at read
    rcases Nat.lt_or_ge cursor.limitRemaining request.count with short | available
    · obtain ⟨fault, refused⟩ := answer_of_lt short
      rw [refused] at read
      cases read
    · rw [answer_of_le available] at read
      dsimp only at read
      cases others : takeAll later (cursor.advance request.count) with
      | mk result last =>
        rw [others] at read
        cases result with
        | error fault => cases read
        | ok more =>
          have within := inductionHypothesis others
          rw [limitRemaining_advance] at within
          omega

end Cursor

end SpirvInspector
