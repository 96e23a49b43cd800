import Mathlib.Data.Nat.Digits.Lemmas
import SpirvInspector.Text.Digits

/-!
# Numerals read back

The digits of a number stand for this number again, also behind the zeros that fill up its columns.
So no two numbers share a numeral, and a number that fits into its columns fills them exactly.
-/

set_option autoImplicit false

namespace SpirvInspector.Text

/-- The digit that a byte shows. -/
def digitOf (b : UInt8) : Nat :=
  if b < 58 then b.toNat - 48 else b.toNat - 55

/-- The number that digits stand for, most significant first. -/
def valueOf (base : Nat) (text : Bytes) : Nat :=
  Nat.ofDigits base (text.reverse.map digitOf)

/-- A digit or one of the capital letters that go on from nine. -/
def isHexDigit (b : UInt8) : Bool :=
  (48 ≤ b && b ≤ 57) || (65 ≤ b && b ≤ 70)

theorem digitOf_digitByte {d : Nat} (small : d < 36) : digitOf (digitByte d) = d := by
  have every : ∀ d < 36, digitOf (digitByte d) = d := by decide
  exact every d small

theorem isHexDigit_digitByte {d : Nat} (small : d < 16) : isHexDigit (digitByte d) = true := by
  have every : ∀ d < 16, isHexDigit (digitByte d) = true := by decide
  exact every d small

section Digits

variable {base n : Nat}

theorem pushDigits_eq (isBase : 1 < base) {bound : Nat} (positive : 0 < n) (enough : n ≤ bound)
    (later : List Nat) :
    pushDigits base bound n later = (Nat.digits base n).reverse ++ later := by
  induction bound generalizing n later with
  | zero => omega
  | succ bound inductionHypothesis =>
    have smaller : n / base < n := Nat.div_lt_self positive isBase
    rw [pushDigits, Nat.digits_def' isBase positive, List.reverse_cons, List.append_assoc]
    split
    · next last => simp [last]
    · next more => exact inductionHypothesis (Nat.pos_of_ne_zero more) (by omega) _

/-- The digits of a number are the usual ones, but zero has a digit too. -/
theorem digits_eq (isBase : 1 < base) (n : Nat) :
    digits base n = if n = 0 then [0] else (Nat.digits base n).reverse := by
  split
  · next isZero => simp [isZero, digits, pushDigits]
  · next nonzero =>
    rw [digits, pushDigits_eq isBase (Nat.pos_of_ne_zero nonzero) (Nat.le_succ n), List.append_nil]

theorem lt_of_mem_digits (isBase : 1 < base) {d : Nat} (isDigit : d ∈ digits base n) :
    d < base := by
  rw [digits_eq isBase] at isDigit
  split at isDigit
  · rw [List.mem_singleton.mp isDigit]
    exact Nat.zero_lt_of_lt isBase
  · exact Nat.digits_lt_base isBase (List.mem_reverse.mp isDigit)

theorem ofDigits_digits (isBase : 1 < base) (n : Nat) :
    Nat.ofDigits base (digits base n).reverse = n := by
  rw [digits_eq isBase]
  split
  · next isZero => simp [isZero]
  · rw [List.reverse_reverse, Nat.ofDigits_digits]

theorem valueOf_numeral (isBase : 1 < base) (shown : base ≤ 36) (n : Nat) :
    valueOf base (numeral base n) = n := by
  have same : ((digits base n).map digitByte).reverse.map digitOf = (digits base n).reverse := by
    rw [← List.map_reverse, List.map_map]
    refine (List.map_congr_left ?_).trans (List.map_id _)
    intro d isDigit
    have small := lt_of_mem_digits isBase (List.mem_reverse.mp isDigit)
    exact digitOf_digitByte (Nat.lt_of_lt_of_le small shown)
  rw [valueOf, numeral, same, ofDigits_digits isBase]

theorem valueOf_padLeft (base width : Nat) (text : Bytes) :
    valueOf base (padLeft width 48 text) = valueOf base text := by
  have zeros (count : Nat) :
      (List.replicate count (48 : UInt8)).reverse.map digitOf = List.replicate count 0 := by
    rw [List.reverse_replicate, List.map_replicate]
    rfl
  rw [valueOf, padLeft, List.reverse_append, List.map_append, zeros,
    Nat.ofDigits_append_replicate_zero]
  rfl

theorem length_numeral_le (isBase : 1 < base) {columns : Nat} (positive : 0 < columns)
    (short : n < base ^ columns) : (numeral base n).length ≤ columns := by
  rw [numeral, List.length_map, digits_eq isBase]
  split
  · exact positive
  · rw [List.length_reverse]
    exact (Nat.digits_length_le_iff isBase n).mpr short

end Digits

section Hexadecimal

variable {columns n : Nat}

@[simp] theorem valueOf_hex (columns n : Nat) : valueOf 16 (hex columns n) = n := by
  rw [hex, valueOf_padLeft, valueOf_numeral (by decide) (by decide)]

theorem length_hex (positive : 0 < columns) (short : n < 16 ^ columns) :
    (hex columns n).length = columns := by
  rw [hex, length_padLeft]
  exact Nat.max_eq_left (length_numeral_le (by decide) positive short)

theorem hex_ne_nil (columns n : Nat) : hex columns n ≠ [] := by
  intro empty
  obtain ⟨-, none⟩ := List.append_eq_nil_iff.mp empty
  have noDigits := List.map_eq_nil_iff.mp none
  rw [digits_eq (by decide)] at noDigits
  split at noDigits
  · cases noDigits
  · next nonzero =>
    exact Nat.digits_ne_nil_iff_ne_zero.mpr nonzero (List.reverse_eq_nil_iff.mp noDigits)

theorem isHexDigit_of_mem_hex {b : UInt8} (isIn : b ∈ hex columns n) : isHexDigit b = true := by
  rw [hex, padLeft, numeral] at isIn
  rcases List.mem_append.mp isIn with isFill | isByte
  · rw [List.eq_of_mem_replicate isFill]
    decide
  · obtain ⟨d, isDigit, rfl⟩ := List.mem_map.mp isByte
    exact isHexDigit_digitByte (lt_of_mem_digits (by decide) isDigit)

theorem notMem_hex {b : UInt8} (notDigit : isHexDigit b = false) : b ∉ hex columns n := by
  intro isIn
  rw [isHexDigit_of_mem_hex isIn] at notDigit
  cases notDigit

end Hexadecimal

end SpirvInspector.Text
