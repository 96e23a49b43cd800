import SpirvInspector.Proofs.Stream.Reading

/-!
# Counters of 64 bits

The offset and the limit of a cursor can be kept in words of 64 bits, whose sums, products and
differences wrap around. As long as the cursor stands inside the bytes it reads, none of them does:
what is left is counted exactly, and the same reads are refused.
-/

set_option autoImplicit false

namespace SpirvInspector

structure Counters where
  offset : UInt64
  limit : Option UInt64
deriving DecidableEq, Repr

namespace Counters

variable (size : UInt64) (counters : Counters)

def bytesLeft : UInt64 :=
  size - counters.offset

def limitRemaining : UInt64 :=
  let left := counters.bytesLeft size / 4
  match counters.limit with
  | some words => if left < words then left else words
  | none => left

def refusal (words : UInt64) : Option Fault :=
  if counters.limit.any (· < words) then some (.limitReached counters.offset.toNat)
  else if counters.bytesLeft size < words * 4 then some (.streamExpected counters.offset.toNat)
  else none

def advance (words : UInt64) : Counters where
  offset := counters.offset + words * 4
  limit := counters.limit.map (· - words)

end Counters

namespace Cursor

/-- A cursor in front of the bytes behind its offset, which is at the start of a word. -/
structure Placed (bytes : Bytes) (cursor : Cursor) : Prop where
  aligned : 4 ∣ cursor.offset
  inside : cursor.offset ≤ bytes.length
  rest : cursor.rest = bytes.drop cursor.offset

namespace Placed

variable {bytes : Bytes} {cursor : Cursor}

theorem ofBytes (bytes : Bytes) (order : ByteOrder) : Placed bytes (.ofBytes bytes order) :=
  ⟨Nat.dvd_zero 4, Nat.zero_le _, rfl⟩

theorem bytesLeft (placed : cursor.Placed bytes) :
    cursor.bytesLeft = bytes.length - cursor.offset := by
  rw [Cursor.bytesLeft, placed.rest, List.length_drop]

theorem advance (placed : cursor.Placed bytes) {words : Nat}
    (within : words ≤ cursor.limitRemaining) : (cursor.advance words).Placed bytes := by
  have long := cursor.length_of_limitRemaining
  have left := placed.bytesLeft
  have inside := placed.inside
  rw [Cursor.bytesLeft] at left
  constructor
  · rw [offset_advance]
    exact (Nat.dvd_add_right placed.aligned).mpr (Nat.dvd_mul_right 4 words)
  · rw [offset_advance]
    omega
  · rw [rest_advance, offset_advance, placed.rest, List.drop_drop]

end Placed

def counters (cursor : Cursor) : Counters :=
  ⟨UInt64.ofNat cursor.offset, cursor.limit.map UInt64.ofNat⟩

/-- The counters of a cursor count what the cursor counts, over bytes of some number. -/
structure Faithful (size : Nat) (cursor : Cursor) : Prop where
  offset : cursor.counters.offset.toNat = cursor.offset
  limit : cursor.counters.limit.map UInt64.toNat = cursor.limit
  bytesLeft : (cursor.counters.bytesLeft (.ofNat size)).toNat = cursor.bytesLeft
  limitRemaining : (cursor.counters.limitRemaining (.ofNat size)).toNat = cursor.limitRemaining
  refusal : ∀ words, 4 * words < 2 ^ 64 →
    cursor.counters.refusal (.ofNat size) (.ofNat words) = cursor.refusal words
  advance : ∀ words, 4 * words < 2 ^ 64 → cursor.refusal words = none →
    cursor.counters.advance (.ofNat words) = (cursor.advance words).counters

namespace Placed

variable {bytes : Bytes} {cursor : Cursor}

theorem toNat_bytesLeft (placed : cursor.Placed bytes) (small : bytes.length < 2 ^ 64) :
    (cursor.counters.bytesLeft (.ofNat bytes.length)).toNat = cursor.bytesLeft := by
  have inside := placed.inside
  rw [Counters.bytesLeft, counters, ← UInt64.ofNat_sub inside, placed.bytesLeft]
  exact UInt64.toNat_ofNat_of_lt' (Nat.lt_of_le_of_lt (Nat.sub_le _ _) small)

theorem toNat_limitRemaining (placed : cursor.Placed bytes) (small : bytes.length < 2 ^ 64)
    (limited : ∀ words ∈ cursor.limit, words < 2 ^ 64) :
    (cursor.counters.limitRemaining (.ofNat bytes.length)).toNat = cursor.limitRemaining := by
  have left := placed.toNat_bytesLeft small
  have quotient : (cursor.counters.bytesLeft (.ofNat bytes.length) / 4).toNat =
      cursor.bytesLeft / 4 := by
    rw [UInt64.toNat_div, left]
    rfl
  rw [limitRemaining_eq]
  cases limit : cursor.limit with
  | none =>
    have unlimited : cursor.counters.limit = none := by simp [counters, limit]
    simp only [Counters.limitRemaining, unlimited, quotient]
  | some words =>
    have limitedTo : cursor.counters.limit = some (.ofNat words) := by simp [counters, limit]
    have exact : (UInt64.ofNat words).toNat = words :=
      UInt64.toNat_ofNat_of_lt' (limited words limit)
    simp only [Counters.limitRemaining, limitedTo, UInt64.lt_iff_toNat_lt, exact, quotient]
    split <;> omega

theorem refusal_counters (placed : cursor.Placed bytes) (small : bytes.length < 2 ^ 64)
    (limited : ∀ words ∈ cursor.limit, words < 2 ^ 64) {words : Nat}
    (few : 4 * words < 2 ^ 64) :
    cursor.counters.refusal (.ofNat bytes.length) (.ofNat words) = cursor.refusal words := by
  have inside := placed.inside
  have offset : cursor.counters.offset.toNat = cursor.offset :=
    UInt64.toNat_ofNat_of_lt' (Nat.lt_of_le_of_lt inside small)
  have product : UInt64.ofNat words * 4 = UInt64.ofNat (words * 4) := by
    rw [UInt64.ofNat_mul]
    rfl
  have limits : cursor.counters.limit.any (· < UInt64.ofNat words) =
      cursor.limit.any (· < words) := by
    cases limit : cursor.limit with
    | none => simp [counters, limit]
    | some bound =>
      have same := UInt64.ofNat_lt_iff_lt (limited bound limit)
        (show words < UInt64.size from Nat.lt_of_le_of_lt (by omega) few)
      simp [counters, limit, same]
  have short : cursor.counters.bytesLeft (.ofNat bytes.length) < UInt64.ofNat words * 4 ↔
      cursor.rest.hasAtLeast (4 * words) = false := by
    rw [product, UInt64.lt_iff_toNat_lt, placed.toNat_bytesLeft small,
      UInt64.toNat_ofNat_of_lt' (show words * 4 < UInt64.size from Nat.mul_comm 4 words ▸ few),
      ← Bool.not_eq_true, Bytes.hasAtLeast_iff, Cursor.bytesLeft]
    omega
  rw [Counters.refusal, Cursor.refusal, limits, offset]
  simp only [short]
  cases cursor.rest.hasAtLeast (4 * words) <;> rfl

theorem advance_counters {words : Nat} (within : words ≤ cursor.limitRemaining) :
    cursor.counters.advance (.ofNat words) = (cursor.advance words).counters := by
  have product : UInt64.ofNat words * 4 = UInt64.ofNat (4 * words) := by
    rw [Nat.mul_comm, UInt64.ofNat_mul]
    rfl
  cases limit : cursor.limit with
  | none => simp [Counters.advance, counters, Cursor.advance, limit, product]
  | some bound =>
    rw [limitRemaining_of_some limit] at within
    have difference : UInt64.ofNat bound - UInt64.ofNat words = UInt64.ofNat (bound - words) :=
      (UInt64.ofNat_sub (by omega)).symm
    simp [Counters.advance, counters, Cursor.advance, limit, product, difference]

theorem faithful (placed : cursor.Placed bytes) (small : bytes.length < 2 ^ 64)
    (limited : ∀ words ∈ cursor.limit, words < 2 ^ 64) : cursor.Faithful bytes.length := by
  constructor
  case offset => exact UInt64.toNat_ofNat_of_lt' (Nat.lt_of_le_of_lt placed.inside small)
  case limit =>
    cases limit : cursor.limit with
    | none => simp [counters, limit]
    | some words =>
      have exact : (UInt64.ofNat words).toNat = words :=
        UInt64.toNat_ofNat_of_lt' (limited words limit)
      simp [counters, limit, exact]
  case bytesLeft => exact placed.toNat_bytesLeft small
  case limitRemaining => exact placed.toNat_limitRemaining small limited
  case refusal =>
    intro words few
    exact placed.refusal_counters small limited few
  case advance =>
    intro words _ accepted
    exact advance_counters ((cursor.refusal_eq_none_iff words).mp accepted)

end Placed

end Cursor

end SpirvInspector
