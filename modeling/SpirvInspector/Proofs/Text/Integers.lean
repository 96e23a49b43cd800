import Mathlib.Data.List.TakeWhile
import SpirvInspector.Proofs.Text.Numerals
import SpirvInspector.Text.Integer

/-!
# Integers as they are written

A text is read as an integer exactly if it consists of blanks, a sign and digits. The value read is
the number written, taken to the nearest one of 64 bits and then cut to 32 bits. So it is the number
written only where that one fits into 32 bits.
-/

set_option autoImplicit false

namespace SpirvInspector.Text

inductive Sign
  | absent
  | plus
  | minus
deriving DecidableEq, Repr

namespace Sign

def text : Sign → Bytes
  | absent => []
  | plus => [43]
  | minus => [45]

def isNegative (sign : Sign) : Bool :=
  sign = minus

end Sign

/-- The parts of a text that an integer is written as. -/
structure WrittenInteger where
  blanks : Bytes
  sign : Sign
  digits : Bytes
  areBlanks : ∀ b ∈ blanks, isBlank b = true
  areDigits : ∀ b ∈ digits, isDigit b = true
  nonempty : digits ≠ []

namespace WrittenInteger

def text (written : WrittenInteger) : Bytes :=
  written.blanks ++ (written.sign.text ++ written.digits)

def value (written : WrittenInteger) : Int :=
  if written.sign.isNegative then -(valueOf 10 written.digits : Int)
  else valueOf 10 written.digits

end WrittenInteger

theorem valueOf_concat (base : Nat) (text : Bytes) (b : UInt8) :
    valueOf base (text ++ [b]) = digitOf b + base * valueOf base text := by
  simp [valueOf, Nat.ofDigits_cons]

theorem ofDigits_concat (digits : Bytes) (b : UInt8) :
    ofDigits (digits ++ [b]) = 10 * ofDigits digits + (b.toNat - 48) := by
  simp [ofDigits]

theorem digitOf_of_isDigit {b : UInt8} (isDecimal : isDigit b = true) :
    digitOf b = b.toNat - 48 := by
  simp only [isDigit, Bool.and_eq_true, decide_eq_true_eq] at isDecimal
  have small : b < 58 := UInt8.lt_of_le_of_lt isDecimal.2 (by decide)
  rw [digitOf, if_pos small]

theorem ofDigits_eq_valueOf {digits : Bytes} (areDigits : ∀ b ∈ digits, isDigit b = true) :
    ofDigits digits = valueOf 10 digits := by
  induction digits using List.reverseRecOn with
  | nil => rfl
  | append_singleton digits b inductionHypothesis =>
    obtain ⟨areEarlier, isLast⟩ := List.forall_mem_append.mp areDigits
    rw [ofDigits_concat, valueOf_concat, inductionHypothesis areEarlier,
      digitOf_of_isDigit (isLast b List.mem_cons_self), Nat.add_comm]

/-- A digit is neither a blank nor a sign. -/
theorem plain_of_isDigit {b : UInt8} (isDecimal : isDigit b = true) :
    isBlank b = false ∧ b ≠ 43 ∧ b ≠ 45 := by
  simp only [isDigit, Bool.and_eq_true, decide_eq_true_eq] at isDecimal
  have above : 48 ≤ b.toNat := UInt8.le_iff_toNat_le.mp isDecimal.1
  have different (other : UInt8) (below : other.toNat < 48) : b ≠ other := by
    rintro rfl
    omega
  have beyond : ¬b ≤ 13 := by
    intro below
    have small : b.toNat ≤ 13 := UInt8.le_iff_toNat_le.mp below
    omega
  refine ⟨?_, different 43 (by decide), different 45 (by decide)⟩
  simp [isBlank, beyond, different 32 (by decide)]

theorem splitSign_cons {b : UInt8} (isPlain : b ≠ 43 ∧ b ≠ 45) (rest : Bytes) :
    splitSign (b :: rest) = (false, b :: rest) := by
  rw [splitSign]
  · rintro _ ⟨⟩
    exact isPlain.2 rfl
  · rintro _ ⟨⟩
    exact isPlain.1 rfl

/-- A sign is read back, and nothing of the text behind it is taken for one. -/
theorem exists_sign (text : Bytes) :
    ∃ sign : Sign, text = sign.text ++ (splitSign text).2 ∧
      (splitSign text).1 = sign.isNegative := by
  fun_cases splitSign text with
  | case1 rest => exact ⟨.minus, rfl, rfl⟩
  | case2 rest => exact ⟨.plus, rfl, rfl⟩
  | case3 => exact ⟨.absent, rfl, rfl⟩

namespace WrittenInteger

variable (written : WrittenInteger)

theorem exists_digit :
    ∃ b later, written.digits = b :: later ∧ isDigit b = true := by
  obtain ⟨b, later, split⟩ := List.exists_cons_of_ne_nil written.nonempty
  exact ⟨b, later, split, written.areDigits b (split ▸ List.mem_cons_self)⟩

theorem splitSign_eq :
    splitSign (written.sign.text ++ written.digits) =
      (written.sign.isNegative, written.digits) := by
  obtain ⟨b, later, split, isDecimal⟩ := written.exists_digit
  cases sign : written.sign with
  | absent =>
    rw [split]
    exact splitSign_cons (plain_of_isDigit isDecimal).2 later
  | plus => rfl
  | minus => rfl

theorem dropWhile_isBlank_text :
    written.text.dropWhile isBlank = written.sign.text ++ written.digits := by
  obtain ⟨b, later, split, isDecimal⟩ := written.exists_digit
  rw [text, List.dropWhile_append_of_pos written.areBlanks]
  cases written.sign with
  | absent => simp [Sign.text, split, (plain_of_isDigit isDecimal).1]
  | plus => rfl
  | minus => rfl

theorem text_ne_nil : written.text ≠ [] := by
  simp [text, written.nonempty]

theorem readInteger_text :
    readInteger written.text = some ⟨wrap32 (clamp64 written.value), true⟩ := by
  have taken : written.digits.takeWhile isDigit = written.digits :=
    List.takeWhile_eq_self_iff.mpr written.areDigits
  have dropped : written.digits.dropWhile isDigit = [] :=
    List.dropWhile_eq_nil_iff.mpr written.areDigits
  simp [readInteger, written.text_ne_nil, written.dropWhile_isBlank_text, written.splitSign_eq,
    taken, dropped, written.nonempty, value, ofDigits_eq_valueOf written.areDigits]

end WrittenInteger

/-- A text is read as a whole only if it is written as an integer. -/
theorem exists_written_of_whole {text : Bytes} {reading : IntegerReading}
    (read : readInteger text = some reading) (whole : reading.whole = true) :
    ∃ written : WrittenInteger, written.text = text := by
  obtain ⟨sign, signed, -⟩ := exists_sign (text.dropWhile isBlank)
  simp only [readInteger] at read
  split at read
  · cases read
  · split at read
    · cases read
      cases whole
    · next present =>
      cases read
      have onlyDigits := List.isEmpty_iff.mp whole
      refine ⟨⟨text.takeWhile isBlank, sign, (splitSign (text.dropWhile isBlank)).2, ?_, ?_, ?_⟩,
        ?_⟩
      · intro b isIn
        exact List.mem_takeWhile_imp isIn
      · exact List.dropWhile_eq_nil_iff.mp onlyDigits
      · intro empty
        simp [empty] at present
      · rw [WrittenInteger.text, ← signed, List.takeWhile_append_dropWhile]

theorem integer?_eq_some_iff {text : Bytes} {value : Int} :
    integer? text = some value ↔
      ∃ written : WrittenInteger, written.text = text ∧
        wrap32 (clamp64 written.value) = value := by
  constructor
  · intro isInteger
    unfold integer? at isInteger
    split at isInteger
    · next reading read =>
      split at isInteger
      · next whole =>
        obtain ⟨written, rfl⟩ := exists_written_of_whole read whole
        rw [written.readInteger_text] at read
        cases read
        exact ⟨written, rfl, Option.some.inj isInteger⟩
      · cases isInteger
    · cases isInteger
  · rintro ⟨written, rfl, rfl⟩
    rw [integer?, written.readInteger_text]
    rfl

theorem wrap32_clamp64_eq_iff (n : Int) :
    wrap32 (clamp64 n) = n ↔ -2 ^ 31 ≤ n ∧ n < 2 ^ 31 := by
  rw [wrap32, clamp64, Int.bmod]
  split_ifs <;> omega

end SpirvInspector.Text
