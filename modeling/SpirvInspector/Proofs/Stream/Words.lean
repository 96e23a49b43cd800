import Mathlib.Algebra.Group.Nat.Defs
import SpirvInspector.Stream.Endian

/-!
# Words and their bytes

A word read least significant byte first is written back as the four bytes it was read from, and the
other way round. The same holds for a double word, and for the whole words of a byte string.
-/

set_option autoImplicit false

namespace SpirvInspector

namespace Bytes

theorem exists_word {bytes : Bytes} (long : 4 ≤ bytes.length) :
    ∃ a b c d later, bytes = a :: b :: c :: d :: later := by
  match bytes with
  | a :: b :: c :: d :: later => exact ⟨a, b, c, d, later, rfl⟩
  | [] | [_] | [_, _] | [_, _, _] => simp at long

end Bytes

namespace Endian

theorem ofBytes_toBytes (width n : Nat) : ofBytes (toBytes width n) = n % 256 ^ width := by
  induction width generalizing n with
  | zero => simp [toBytes, ofBytes, Nat.mod_one]
  | succ width inductionHypothesis =>
    have low : (n % 256).toUInt8.toNat = n % 256 := by simp
    rw [toBytes, ofBytes, inductionHypothesis, low, Nat.pow_succ', Nat.mod_mul]

theorem ofBytes_lt (bytes : Bytes) : ofBytes bytes < 256 ^ bytes.length := by
  induction bytes with
  | nil => simp [ofBytes]
  | cons b rest inductionHypothesis =>
    have bound : b.toNat < 256 := b.toNat_lt
    rw [ofBytes, List.length_cons, Nat.pow_succ']
    omega

theorem toBytes_swap (width n : Nat) : toBytes width (swap width n) = (toBytes width n).reverse := by
  have length : (toBytes width n).reverse.length = width := by simp
  have undo := toBytes_ofBytes (toBytes width n).reverse
  rwa [length] at undo

theorem swap_lt (width n : Nat) : swap width n < 256 ^ width := by
  simpa [swap] using ofBytes_lt (toBytes width n).reverse

theorem swap_swap (width n : Nat) : swap width (swap width n) = n % 256 ^ width := by
  rw [swap, toBytes_swap, List.reverse_reverse, ofBytes_toBytes]

theorem toBytes_toNat_ofNat {bytes : Bytes} (double : bytes.length = 8) :
    toBytes 8 (UInt64.ofNat (ofBytes bytes)).toNat = bytes := by
  have bound : ofBytes bytes < 2 ^ 64 := by
    simpa [double] using ofBytes_lt bytes
  have value : (UInt64.ofNat (ofBytes bytes)).toNat = ofBytes bytes := by simpa using bound
  rw [value, ← double, toBytes_ofBytes]

theorem ofNat_ofBytes_toBytes (value : UInt64) :
    UInt64.ofNat (ofBytes (toBytes 8 value.toNat)) = value := by
  have bound : value.toNat < 256 ^ 8 := value.toNat_lt
  rw [ofBytes_toBytes, Nat.mod_eq_of_lt bound, UInt64.ofNat_toNat]

end Endian

namespace Word

@[simp] theorem length_bytes (word : Word) : word.bytes.length = 4 := by
  simp [bytes]

/-- A word has four bytes, and stands for itself when they are read. -/
theorem exists_bytes (word : Word) :
    ∃ a b c d, word.bytes = [a, b, c, d] ∧ ofStream .little a b c d = word := by
  refine ⟨_, _, _, _, rfl, ?_⟩
  change UInt32.ofNat (Endian.ofBytes (Endian.toBytes 4 word.toNat)) = word
  have bound : word.toNat < 256 ^ 4 := word.toNat_lt
  rw [Endian.ofBytes_toBytes, Nat.mod_eq_of_lt bound, UInt32.ofNat_toNat]

@[simp] theorem bytes_ofStream (a b c d : UInt8) :
    (ofStream .little a b c d).bytes = [a, b, c, d] := by
  have bound : Endian.ofBytes [a, b, c, d] < 2 ^ 32 := by
    simpa using Endian.ofBytes_lt [a, b, c, d]
  have value : (ofStream .little a b c d).toNat = Endian.ofBytes [a, b, c, d] := by
    simpa [ofStream] using bound
  rw [bytes, value]
  exact Endian.toBytes_ofBytes [a, b, c, d]

theorem collect_append (order : ByteOrder) (recent earlier : List Word) (bytes : Bytes) :
    collect order (recent ++ earlier) bytes = earlier.reverse ++ collect order recent bytes := by
  fun_induction collect order recent bytes with
  | case1 recent a b c d rest inductionHypothesis =>
    rw [collect]
    exact inductionHypothesis
  | case2 recent bytes short =>
    rw [collect, List.reverse_append]
    exact short

@[simp] theorem ofBytes_cons (order : ByteOrder) (a b c d : UInt8) (rest : Bytes) :
    ofBytes order (a :: b :: c :: d :: rest) = ofStream order a b c d :: ofBytes order rest := by
  rw [ofBytes, collect]
  exact collect_append order [] [ofStream order a b c d] rest

theorem ofBytes_serialize (words : List Word) : ofBytes .little (serialize words) = words := by
  induction words with
  | nil => rfl
  | cons word later inductionHypothesis =>
    obtain ⟨a, b, c, d, bytes, stands⟩ := word.exists_bytes
    have split : serialize (word :: later) = a :: b :: c :: d :: serialize later := by
      change word.bytes ++ serialize later = _
      rw [bytes]
      rfl
    rw [split, ofBytes_cons, stands, inductionHypothesis]

theorem serialize_ofBytes {bytes : Bytes} {words : Nat} (whole : bytes.length = 4 * words) :
    serialize (ofBytes .little bytes) = bytes := by
  induction words generalizing bytes with
  | zero =>
    have empty : bytes = [] := List.length_eq_zero_iff.mp (by omega)
    rw [empty]
    rfl
  | succ words inductionHypothesis =>
    obtain ⟨a, b, c, d, later, rfl⟩ := Bytes.exists_word (show 4 ≤ bytes.length by omega)
    simp only [List.length_cons] at whole
    have first : serialize (ofBytes .little (a :: b :: c :: d :: later)) =
        (ofStream .little a b c d).bytes ++ serialize (ofBytes .little later) := by
      rw [ofBytes_cons]
      rfl
    rw [first, bytes_ofStream, inductionHypothesis (by omega)]
    rfl

end Word

end SpirvInspector
