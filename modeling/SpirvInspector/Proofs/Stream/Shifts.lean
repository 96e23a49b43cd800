import SpirvInspector.Proofs.Stream.Words

/-!
# Words by shifts

A word is put together from its bytes by shifts, in either order, and its bytes are cut out of it by
shifts and masks. Each byte has a place of eight bits, so that no two of them overlap. What is read
in the opposite order is the swapped word, and swapping twice undoes it.
-/

set_option autoImplicit false

namespace SpirvInspector

namespace Endian

/-- The first byte and the bytes behind it do not overlap. -/
theorem ofBytes_cons_eq_or (b : UInt8) (rest : Bytes) :
    ofBytes (b :: rest) = b.toNat ||| ofBytes rest <<< 8 := by
  have bound : b.toNat < 2 ^ 8 := b.toNat_lt
  rw [ofBytes, Nat.or_comm, ← Nat.shiftLeft_add_eq_or_of_lt bound, Nat.shiftLeft_eq]
  omega

theorem toBytes_succ_eq_shift (width n : Nat) :
    toBytes (width + 1) n = n.toUInt8 :: toBytes width (n >>> 8) := by
  rw [toBytes, Nat.shiftRight_eq_div_pow]
  congr 1
  apply UInt8.toNat_inj.mp
  simp

end Endian

namespace Word

/-- The word that is put together from four bytes in stream order. -/
def assemble (order : ByteOrder) (a b c d : UInt8) : Word :=
  match order with
  | .little => a.toUInt32 ||| b.toUInt32 <<< 8 ||| c.toUInt32 <<< 16 ||| d.toUInt32 <<< 24
  | .big => d.toUInt32 ||| c.toUInt32 <<< 8 ||| b.toUInt32 <<< 16 ||| a.toUInt32 <<< 24

/-- The bytes that are cut out of a word, lowest first. -/
def cut (word : Word) : Bytes :=
  [(word &&& 0xFF).toUInt8, (word >>> 8 &&& 0xFF).toUInt8, (word >>> 16 &&& 0xFF).toUInt8,
    (word >>> 24 &&& 0xFF).toUInt8]

theorem assemble_eq (order : ByteOrder) (a b c d : UInt8) :
    assemble order a b c d = ofStream order a b c d := by
  have little (a b c d : UInt8) : assemble .little a b c d = ofStream .little a b c d := by
    have places : Endian.ofBytes [a, b, c, d] =
        a.toNat ||| b.toNat <<< 8 ||| c.toNat <<< 16 ||| d.toNat <<< 24 := by
      have behind : Endian.ofBytes [] = 0 := rfl
      simp only [Endian.ofBytes_cons_eq_or, behind, Nat.shiftLeft_or_distrib, ← Nat.shiftLeft_add,
        Nat.zero_shiftLeft, Nat.or_zero, Nat.or_assoc]
    have wide (byte : UInt8) : UInt32.ofNat byte.toNat = byte.toUInt32 := by simp
    rw [ofStream, places]
    simp only [UInt32.ofNat_or, UInt32.ofNat_shiftLeft _ _ (show 8 < 32 by decide),
      UInt32.ofNat_shiftLeft _ _ (show 16 < 32 by decide),
      UInt32.ofNat_shiftLeft _ _ (show 24 < 32 by decide), wide]
    rfl
  cases order with
  | little => exact little a b c d
  | big => exact little d c b a

theorem cut_eq (word : Word) : word.cut = word.bytes := by
  have low (part : Word) : (part &&& 0xFF).toUInt8 = part.toNat.toUInt8 := by
    apply UInt8.toNat_inj.mp
    have mask : (0xFF : Word).toNat = 2 ^ 8 - 1 := rfl
    rw [UInt32.toNat_toUInt8, UInt32.toNat_and, mask, Nat.and_two_pow_sub_one_eq_mod]
    simp
  have behind (n : Nat) : Endian.toBytes 0 n = [] := rfl
  simp only [cut, low, bytes, Endian.toBytes_succ_eq_shift, behind, ← Nat.shiftRight_add,
    UInt32.toNat_shiftRight]
  rfl

/-- A word that is read in the opposite order is swapped. -/
theorem ofStream_big (a b c d : UInt8) :
    ofStream .big a b c d = swapped (ofStream .little a b c d) := by
  have bytes : Endian.toBytes 4 (ofStream .little a b c d).toNat = [a, b, c, d] :=
    bytes_ofStream a b c d
  rw [swapped, Endian.swap, bytes]
  rfl

@[simp] theorem swapped_swapped (word : Word) : word.swapped.swapped = word := by
  obtain ⟨a, b, c, d, -, stands⟩ := word.exists_bytes
  rw [← stands, ← ofStream_big]
  exact (ofStream_big d c b a).symm

theorem collect_big (earlier : List Word) (bytes : Bytes) :
    collect .big (earlier.map swapped) bytes = (collect .little earlier bytes).map swapped := by
  fun_induction collect .little earlier bytes with
  | case1 earlier a b c d rest inductionHypothesis =>
    rw [collect, ofStream_big]
    exact inductionHypothesis
  | case2 earlier bytes short =>
    rw [collect, List.map_reverse]
    exact short

/-- Bytes that are read in the opposite order give the swapped words. -/
theorem ofBytes_big (bytes : Bytes) : ofBytes .big bytes = (ofBytes .little bytes).map swapped :=
  collect_big [] bytes

/-- Whole words keep their places in front of whatever follows. -/
theorem ofBytes_append (order : ByteOrder) {front : Bytes} {words : Nat}
    (whole : front.length = 4 * words) (back : Bytes) :
    ofBytes order (front ++ back) = ofBytes order front ++ ofBytes order back := by
  induction words generalizing front with
  | zero =>
    have empty : front = [] := List.length_eq_zero_iff.mp whole
    rw [empty]
    rfl
  | succ words inductionHypothesis =>
    obtain ⟨a, b, c, d, later, rfl⟩ := Bytes.exists_word (show 4 ≤ front.length by omega)
    simp only [List.length_cons] at whole
    have behind := inductionHypothesis (show later.length = 4 * words by omega)
    simp only [List.cons_append, ofBytes_cons, behind]

end Word

end SpirvInspector
