import SpirvInspector.Proofs.Decode.Soundness

/-!
# Completeness of operand decoding

Where the next words of a little-endian cursor spell a group of operands, decoding its kind yields
just this group. Only a number that takes the rest of its instruction needs to know where that ends.
-/

set_option autoImplicit false

namespace SpirvInspector

namespace ReadAt

variable {cursor : Cursor} {earlier later : List Operand}

theorem front (read : ReadAt cursor (earlier ++ later)) : ReadAt cursor earlier := by
  obtain ⟨within, spelled⟩ := read
  rw [Operand.listSize_append] at within
  constructor
  · omega
  · intro little
    have whole := List.forall₂_take (Operand.listCells earlier).length (spelled little)
    rw [Operand.listCells_append, List.take_left, Operand.length_listCells, List.take_take,
      Operand.listSize_append, Nat.min_eq_left (by omega)] at whole
    exact whole

theorem back (read : ReadAt cursor (earlier ++ later)) :
    ReadAt (cursor.advance (Operand.listSize earlier)) later := by
  obtain ⟨within, spelled⟩ := read
  rw [Operand.listSize_append] at within
  constructor
  · rw [Cursor.limitRemaining_advance]
    omega
  · intro little
    have whole := List.forall₂_drop (Operand.listCells earlier).length (spelled little)
    rw [Operand.listCells_append, List.drop_left, Operand.length_listCells, List.drop_take,
      Operand.listSize_append, Nat.mul_add, Nat.add_sub_cancel_left] at whole
    exact whole

end ReadAt

namespace Cursor

theorem nextWord_of_readAt {cursor : Cursor} {operand : Operand} (word : Word)
    (little : cursor.order = .little) (cells : operand.cells = word.cells)
    (read : ReadAt cursor [operand]) : cursor.nextWord = (.ok word, cursor.advance 1) := by
  obtain ⟨within, spelled⟩ := read
  rw [Operand.listSize_singleton, Operand.size_eq_one cells] at within
  have bytes := spelled little
  rw [Operand.listSize_singleton, Operand.listCells_singleton, Operand.size_eq_one cells, cells,
    Word.cells, Spells.data_iff] at bytes
  apply nextWord_of_bytes within little
  rw [← bytes]
  exact (List.take_append_drop _ _).symm

theorem takeWhile_eq_of_take {rest text filler : Bytes} {count : Nat} (nulFree : 0 ∉ text)
    (bytes : rest.take count = text ++ 0 :: filler) : rest.takeWhile (· != 0) = text := by
  have nonzero : ∀ byte ∈ text, (byte != 0) = true := by
    intro byte isIn
    simp only [bne_iff_ne, ne_eq]
    rintro rfl
    exact nulFree isIn
  rw [← List.take_append_drop count rest, bytes, List.append_assoc,
    List.takeWhile_append_of_pos nonzero]
  simp

theorem nextString_of_take {cursor : Cursor} {text filler : Bytes} (nulFree : 0 ∉ text)
    (within : text.stringWords ≤ cursor.limitRemaining)
    (bytes : cursor.rest.take (4 * text.stringWords) = text ++ 0 :: filler) :
    cursor.nextString = (.ok text, cursor.advance text.stringWords) := by
  cases read : cursor.nextString with
  | mk result behind =>
    have reading := cursor.nextString_reading
    rw [read] at reading
    cases reading with
    | terminated other otherFiller otherNulFree otherWithin otherBytes =>
      have same : other = text := by
        rw [← takeWhile_eq_of_take nulFree bytes, takeWhile_eq_of_take otherNulFree otherBytes]
      rw [same]
      rfl
    | unterminated allNulFree =>
      have isZero : 0 ∈ cursor.rest.take (4 * text.stringWords) := by
        rw [bytes]
        simp
      exact (allNulFree (List.take_subset_take_left _ (by omega) isZero)).elim

end Cursor

namespace OperandKind

variable {kind : OperandKind} {cursor : Cursor}

theorem decodeEnumerated_of_readAt (values : UInt32 → List UInt32) {word : UInt32}
    {chosen : List Enumerant} (decode : OperandKind → Cursor → Decoded)
    (little : cursor.order = .little) (read : ReadAt cursor [⟨.listed kind, .enumerated word⟩])
    (known : List.Forall₂ (fun value enumerant => kind.enumerant? value = some enumerant)
      (values word) chosen) :
    kind.decodeEnumerated decode values cursor =
      Decoded.andThen ⟨[⟨.listed kind, .enumerated word⟩], cursor.advance 1, none⟩
        (.sequence decode (chosen.flatMap Enumerant.parameters)) := by
  have first := Cursor.nextWord_of_readAt word little rfl read
  have found := enumerantsOf_eq_ok_iff.mpr known
  simp only [decodeEnumerated, first, found]

/-- At an operand whose head is spelled by the next words, the head is read. -/
theorem decodeWith_of_headRead {head : List Operand} {parts : List OperandKind}
    (decode : OperandKind → Cursor → Decoded) (little : cursor.order = .little)
    (read : HeadRead kind cursor head parts)
    (closing : kind.shape = .contextNumber → Operand.listSize head = cursor.limitRemaining) :
    decodeWith decode kind cursor =
      Decoded.andThen ⟨head, cursor.advance (Operand.listSize head), none⟩
        (.sequence decode parts) := by
  obtain ⟨readAt, opens⟩ := read
  cases opens with
  | id shape id =>
    have word := Cursor.nextWord_of_readAt id little rfl readAt
    simp [decodeWith, shape, word, Decoded.ofReading, Decoded.andThen_sequence_nil, Operand.size]
  | number shape value =>
    have word := Cursor.nextWord_of_readAt value little rfl readAt
    simp [decodeWith, shape, word, Decoded.ofReading, Decoded.andThen_sequence_nil, Operand.size]
  | shortNumber shape value =>
    have word := Cursor.nextWord_of_readAt value little rfl readAt
    have one : cursor.limitRemaining = 1 := (closing shape).symm
    simp [decodeWith, shape, decodeContextNumber, one, word, Decoded.ofReading,
      Decoded.andThen_sequence_nil, Operand.size]
  | longNumber shape value =>
    have two : cursor.limitRemaining = 2 := (closing shape).symm
    have bytes := readAt.spelled little
    simp only [Operand.listCells_singleton, Operand.listSize_singleton, Operand.cells, Operand.size,
      Spells.data_iff] at bytes
    have whole : (cursor.rest.take (4 * 2)).length = 4 * 2 := by simp [bytes]
    have words : UInt64.ofNat (Endian.ofBytes (Word.serialize
        (Word.ofBytes .little (cursor.rest.take (4 * 2))))) = value := by
      rw [Word.serialize_ofBytes whole, bytes, Endian.ofNat_ofBytes_toBytes]
    have both := Cursor.nextWords_of_le (Nat.le_of_eq two.symm)
    rw [decodeWith, shape]
    simp only [decodeContextNumber, two, both, little, words, Decoded.andThen_sequence_nil,
      Operand.listSize_singleton, Operand.size]
  | string shape text nulFree =>
    have bytes := readAt.spelled little
    have within := readAt.within
    simp only [Operand.listCells_singleton, Operand.listSize_singleton, Operand.cells, Operand.size]
      at bytes within
    obtain ⟨front, filler, taken, isText, -⟩ := bytes.split
    rw [Spells.data_iff] at isText
    rw [isText, List.append_assoc] at taken
    have string := Cursor.nextString_of_take nulFree within taken
    simp [decodeWith, shape, string, Decoded.ofReading, Decoded.andThen_sequence_nil, Operand.size]
  | choice shape known =>
    have enumerated := decodeEnumerated_of_readAt (fun value => [value]) decode little readAt
      (.cons known .nil)
    simpa [decodeWith, shape, Operand.size] using enumerated
  | bits shape known =>
    have enumerated := decodeEnumerated_of_readAt setBits decode little readAt known
    simpa [decodeWith, shape, Operand.size] using enumerated
  | pair shape => simp [decodeWith, shape, Decoded.andThen]

theorem decode_of_headRead {head inner : List Operand} {parts : List OperandKind}
    (little : cursor.order = .little) (read : HeadRead kind cursor head parts)
    (closing : kind.shape = .contextNumber → Operand.listSize head = cursor.limitRemaining)
    (parameters : Decoded.sequence decode parts (cursor.advance (Operand.listSize head)) =
      ⟨inner, (cursor.advance (Operand.listSize head)).advance (Operand.listSize inner), none⟩) :
    kind.decode cursor =
      ⟨head ++ inner, cursor.advance (Operand.listSize (head ++ inner)), none⟩ := by
  rw [decode_eq_decodeWith, decodeWith_of_headRead decode little read closing]
  simp only [Decoded.andThen, parameters, Cursor.advance_advance, Operand.listSize_append]

theorem sequence_of_groups {kinds : List OperandKind} {operands : List Operand}
    (groups : Groups kinds operands) (closed : ∀ kind ∈ kinds, kind.shape ≠ .contextNumber)
    {cursor : Cursor} (little : cursor.order = .little) (read : ReadAt cursor operands) :
    Decoded.sequence decode kinds cursor =
      ⟨operands, cursor.advance (Operand.listSize operands), none⟩ := by
  induction groups generalizing cursor with
  | nil => simp [Decoded.sequence, Decoded.nothing]
  | @cons kind parts kinds head inner later opens _ _ parametersHypothesis othersHypothesis =>
    have notContext := closed kind List.mem_cons_self
    have still (words : Nat) : (cursor.advance words).order = .little := little
    have parameters := parametersHypothesis (fun part => opens.shape_of_mem_parts)
      (still (Operand.listSize head)) read.front.back
    have others := othersHypothesis
      (fun other isOther => closed other (List.mem_cons_of_mem _ isOther))
      (still (Operand.listSize (head ++ inner))) read.back
    have first := decode_of_headRead little ⟨read.front.front, opens⟩
      (fun isContext => (notContext isContext).elim) parameters
    rw [Decoded.sequence, first]
    simp only [Decoded.andThen, others, Cursor.advance_advance, ← Operand.listSize_append]

/-- A group that the next words spell is what decoding its kind yields. -/
theorem decode_of_groups {operands : List Operand} (groups : Groups [kind] operands)
    (little : cursor.order = .little) (read : ReadAt cursor operands)
    (closing : kind.shape = .contextNumber → Operand.listSize operands = cursor.limitRemaining) :
    kind.decode cursor = ⟨operands, cursor.advance (Operand.listSize operands), none⟩ := by
  obtain ⟨head, parts, inner, rfl, opens, groups⟩ := Groups.single_iff.mp groups
  have closingHead : kind.shape = .contextNumber →
      Operand.listSize head = cursor.limitRemaining := by
    intro isContext
    have whole := closing isContext
    rw [opens.parts_of_contextNumber isContext] at groups
    cases groups
    rwa [List.append_nil] at whole
  have parameters := sequence_of_groups groups (fun part => opens.shape_of_mem_parts)
    (show (cursor.advance (Operand.listSize head)).order = .little from little) read.back
  exact decode_of_headRead little ⟨read.front, opens⟩ closingHead parameters

end OperandKind

end SpirvInspector
