import SpirvInspector.Proofs.Format.Encoding

/-!
# Operands in either byte order

The order of a stream is the order of the bytes within each word. The words of an operand come in
the same order either way, and so do the bytes of a string.
-/

set_option autoImplicit false

namespace SpirvInspector

namespace Word

/-- The four bytes of a word as they come in a stream. -/
def bytesIn (order : ByteOrder) (word : Word) : Bytes :=
  match order with
  | .little => word.bytes
  | .big => word.bytes.reverse

@[simp] theorem length_bytesIn (order : ByteOrder) (word : Word) :
    (word.bytesIn order).length = 4 := by
  cases order <;> simp [bytesIn]

@[simp] theorem bytesIn_ofStream (order : ByteOrder) (a b c d : UInt8) :
    (ofStream order a b c d).bytesIn order = [a, b, c, d] := by
  cases order with
  | little => exact bytes_ofStream a b c d
  | big =>
    have mirrored : ofStream .big a b c d = ofStream .little d c b a := rfl
    rw [bytesIn, mirrored, bytes_ofStream]
    rfl

theorem flatMap_bytesIn_ofBytes (order : ByteOrder) {bytes : Bytes} {words : Nat}
    (whole : bytes.length = 4 * words) :
    (ofBytes order bytes).flatMap (bytesIn order) = bytes := by
  induction words generalizing bytes with
  | zero =>
    have empty : bytes = [] := List.length_eq_zero_iff.mp whole
    rw [empty]
    rfl
  | succ words inductionHypothesis =>
    obtain ⟨a, b, c, d, later, rfl⟩ := Bytes.exists_word (show 4 ≤ bytes.length by omega)
    simp only [List.length_cons] at whole
    have behind : (ofBytes order later).flatMap (bytesIn order) = later :=
      inductionHypothesis (by omega)
    simp [behind]

theorem length_ofBytes (order : ByteOrder) {bytes : Bytes} {words : Nat}
    (whole : bytes.length = 4 * words) : (ofBytes order bytes).length = words := by
  have lengths := congrArg List.length (flatMap_bytesIn_ofBytes order whole)
  simp only [List.length_flatMap, length_bytesIn, List.map_const', List.sum_replicate_nat]
    at lengths
  omega

@[simp] theorem length_serialize (words : List Word) :
    (serialize words).length = 4 * words.length := by
  simp [serialize, Nat.mul_comm]

end Word

namespace Operand

/-- The cells of an operand as they come in a stream. -/
def cellsIn (order : ByteOrder) (operand : Operand) : List Cell :=
  match operand.value with
  | .id id => (id.bytesIn order).map .data
  | .number32 value => (Word.bytesIn order value).map .data
  | .number64 value =>
    ((Word.ofBytes .little (Endian.toBytes 8 value.toNat)).flatMap (Word.bytesIn order)).map .data
  | .string _ => operand.cells
  | .enumerated value => (Word.bytesIn order value).map .data

def listCellsIn (order : ByteOrder) (operands : List Operand) : List Cell :=
  operands.flatMap (cellsIn order)

theorem cellsIn_little (operand : Operand) : operand.cellsIn .little = operand.cells := by
  rcases operand with ⟨kind, value⟩
  cases value with
  | number64 value =>
    have whole : (Endian.toBytes 8 value.toNat).length = 4 * 2 := Endian.length_toBytes 8 _
    simp only [cellsIn, cells, Word.flatMap_bytesIn_ofBytes .little whole]
  | _ => rfl

theorem listCellsIn_little (operands : List Operand) :
    listCellsIn .little operands = listCells operands := by
  have same : cellsIn .little = cells := funext cellsIn_little
  rw [listCellsIn, same, listCells]

@[simp] theorem listCellsIn_singleton (order : ByteOrder) (operand : Operand) :
    listCellsIn order [operand] = operand.cellsIn order := by
  simp [listCellsIn]

@[simp] theorem listCellsIn_append (order : ByteOrder) (first second : List Operand) :
    listCellsIn order (first ++ second) = listCellsIn order first ++ listCellsIn order second := by
  simp [listCellsIn]

/-- A number that was read as two words is written as these words. -/
theorem cellsIn_number64 (order : ByteOrder) (kind : KindTag) {words : List Word}
    (two : words.length = 2) :
    cellsIn order ⟨kind, .number64 (UInt64.ofNat (Endian.ofBytes (Word.serialize words)))⟩ =
      (words.flatMap (Word.bytesIn order)).map .data := by
  have double : (Word.serialize words).length = 8 := by
    rw [Word.length_serialize, two]
  simp only [cellsIn, Endian.toBytes_toNat_ofNat double, Word.ofBytes_serialize]

end Operand

namespace Cursor

theorem nextWord_spelled (cursor : Cursor) :
    (0 < cursor.limitRemaining ∧ ∃ word, cursor.nextWord = (.ok word, cursor.advance 1) ∧
      cursor.rest.take 4 = word.bytesIn cursor.order) ∨
    (cursor.limitRemaining = 0 ∧ cursor.nextWord = (.error cursor.exhaustion, cursor)) := by
  rcases Nat.eq_zero_or_pos cursor.limitRemaining with drained | available
  · exact .inr ⟨drained, nextWord_of_zero drained⟩
  · obtain ⟨a, b, c, d, later, bytes, read⟩ := nextWord_of_pos available
    refine .inl ⟨available, _, read, ?_⟩
    rw [bytes, Word.bytesIn_ofStream]
    rfl

end Cursor

end SpirvInspector
