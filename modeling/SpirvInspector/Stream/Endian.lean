import SpirvInspector.Bytes

/-!
# Byte order

Fixed-width numbers as bytes, least significant first, at any width; words of four bytes in either
order; and the reversal of the bytes of a number.
-/

set_option autoImplicit false

namespace SpirvInspector

inductive ByteOrder
  | little
  | big
deriving DecidableEq, Repr

namespace Endian

/-- The low `width` bytes of a number, least significant first. -/
def toBytes : Nat → Nat → Bytes
  | 0, _ => []
  | width + 1, n => (n % 256).toUInt8 :: toBytes width (n / 256)

/-- The number with these bytes, least significant first. -/
def ofBytes : Bytes → Nat
  | [] => 0
  | b :: rest => b.toNat + 256 * ofBytes rest

@[simp] theorem length_toBytes (width n : Nat) : (toBytes width n).length = width := by
  induction width generalizing n with
  | zero => rfl
  | succ width inductionHypothesis => simp [toBytes, inductionHypothesis]

theorem toBytes_ofBytes (bytes : Bytes) : toBytes bytes.length (ofBytes bytes) = bytes := by
  induction bytes with
  | nil => rfl
  | cons b rest inductionHypothesis =>
    have bound : b.toNat < 256 := b.toNat_lt
    have low : (b.toNat + 256 * ofBytes rest) % 256 = b.toNat := by omega
    have high : (b.toNat + 256 * ofBytes rest) / 256 = ofBytes rest := by omega
    simp [toBytes, ofBytes, low, high, inductionHypothesis]

/-- A number of `width` bytes read in the opposite order. -/
def swap (width n : Nat) : Nat :=
  ofBytes (toBytes width n).reverse

end Endian

abbrev Word := UInt32

namespace Word

/-- The word that four bytes in stream order stand for. -/
def ofStream (order : ByteOrder) (a b c d : UInt8) : Word :=
  match order with
  | .little => UInt32.ofNat (Endian.ofBytes [a, b, c, d])
  | .big => UInt32.ofNat (Endian.ofBytes [d, c, b, a])

/-- The four bytes of a word, least significant first. -/
def bytes (word : Word) : Bytes :=
  Endian.toBytes 4 word.toNat

/-- A word with its bytes in the opposite order. -/
def swapped (word : Word) : Word :=
  UInt32.ofNat (Endian.swap 4 word.toNat)

/-- Collects words in front of which `earlier` were read, in reverse. -/
def collect (order : ByteOrder) (earlier : List Word) : Bytes → List Word
  | a :: b :: c :: d :: rest => collect order (ofStream order a b c d :: earlier) rest
  | _ => earlier.reverse

/-- The whole words of a byte string; a ragged tail is dropped. -/
def ofBytes (order : ByteOrder) (bytes : Bytes) : List Word :=
  collect order [] bytes

/-- Words in stream order, least significant byte first. -/
def serialize (words : List Word) : Bytes :=
  words.flatMap bytes

end Word

end SpirvInspector
