import SpirvInspector.Proofs.Decode.Accounting

/-!
# Soundness of operand decoding

A decode that completes has read the groups of operands that the grammar asks for, from exactly the
bytes they are written as. A decode that fails has read some operands in full before the fault, and
the fault belongs to the operand behind them.
-/

set_option autoImplicit false

namespace SpirvInspector

/-- The operands that the next words at a cursor spell, none of them beyond its limit. -/
structure ReadAt (cursor : Cursor) (operands : List Operand) : Prop where
  within : Operand.listSize operands ≤ cursor.limitRemaining
  spelled : cursor.order = .little →
    Spells (Operand.listCells operands) (cursor.rest.take (4 * Operand.listSize operands))

theorem SpelledAt.readAt {cursor : Cursor} {operands : List Operand}
    (spelled : SpelledAt cursor operands) : ReadAt cursor operands := by
  refine ⟨spelled.within, ?_⟩
  intro little
  have bytes := spelled.spelled
  rwa [little, Operand.listCellsIn_little] at bytes

namespace ReadAt

theorem nil (cursor : Cursor) : ReadAt cursor [] :=
  ⟨Nat.zero_le _, fun _ => .nil⟩

theorem append {cursor : Cursor} {front back : List Operand} (first : ReadAt cursor front)
    (second : ReadAt (cursor.advance (Operand.listSize front)) back) :
    ReadAt cursor (front ++ back) := by
  obtain ⟨firstWithin, firstSpelled⟩ := first
  obtain ⟨secondWithin, secondSpelled⟩ := second
  rw [Cursor.limitRemaining_advance] at secondWithin
  constructor
  · rw [Operand.listSize_append]
    omega
  · intro little
    rw [Operand.listCells_append, Operand.listSize_append, Nat.mul_add, List.take_add]
    exact (firstSpelled little).append (secondSpelled little)

theorem ofWord {cursor : Cursor} {operand : Operand} {word : Word}
    (cells : operand.cells = word.cells) (available : 0 < cursor.limitRemaining)
    (bytes : cursor.order = .little → cursor.rest.take 4 = word.bytes) :
    ReadAt cursor [operand] := by
  have size : Operand.listSize [operand] = 1 := by
    rw [Operand.listSize_singleton, Operand.size_eq_one cells]
  constructor
  · rw [size]
    exact available
  · intro little
    rw [size, Operand.listCells_singleton, cells, Word.cells, Spells.data_iff]
    exact bytes little

end ReadAt

/-- An operand of a kind begins at the cursor with `head`, and parts of it follow. -/
structure HeadRead (kind : OperandKind) (cursor : Cursor) (head : List Operand)
    (parts : List OperandKind) : Prop extends ReadAt cursor head where
  opens : Opens kind head parts

/-- `HeadFault kind cursor fault words`: no operand of the kind begins at the cursor, which is seen
after reading so many words. -/
inductive HeadFault (kind : OperandKind) (cursor : Cursor) : Fault → Nat → Prop
  | exhausted (unread : kind.shape ≠ .string → cursor.limitRemaining = 0) :
      HeadFault kind cursor (cursor.advance cursor.limitRemaining).exhaustion cursor.limitRemaining
  | unknown {word value : UInt32} {before behind : List UInt32}
      (isEnumerated : kind.shape.isEnumerated = true) (available : 0 < cursor.limitRemaining)
      (read : cursor.nextWord = (.ok word, cursor.advance 1))
      (values : kind.valuesIn word = before ++ value :: behind)
      (known : ∀ value ∈ before, kind.enumerant? value ≠ none)
      (isUnknown : kind.enumerant? value = none) :
      HeadFault kind cursor (.enumerantUnknown cursor.offset kind value) 1
  | tooWide (shape : kind.shape = .contextNumber) (wide : 2 < cursor.limitRemaining) :
      HeadFault kind cursor
        (.literalWidthUnsupported cursor.offset kind (UInt32.ofNat cursor.limitRemaining)) 0

/-- A fault of an operand that is not read, without what the order of the bytes adds to it. -/
theorem Unread.headFault {kind : OperandKind} {cursor : Cursor} {fault : Fault} {words : Nat}
    (unread : Unread kind cursor fault words) : HeadFault kind cursor fault words := by
  cases unread with
  | drained notString empty =>
    have failed : HeadFault kind cursor _ _ := .exhausted fun _ => empty
    simpa [empty] using failed
  | unterminated isString nulFree => exact .exhausted fun notString => (notString isString).elim
  | unknown isEnumerated available read _ values known isUnknown =>
    exact .unknown isEnumerated available read values known isUnknown
  | tooWide shape wide => exact .tooWide shape wide

inductive DecodedAs (kinds : List OperandKind) (cursor : Cursor) : Decoded → Prop
  | complete {operands : List Operand} (read : ReadAt cursor operands)
      (groups : Groups kinds operands) :
      DecodedAs kinds cursor ⟨operands, cursor.advance (Operand.listSize operands), none⟩
  | failed {operands : List Operand} {kind : OperandKind} {fault : Fault} {words : Nat}
      (read : ReadAt cursor operands)
      (failed : HeadFault kind (cursor.advance (Operand.listSize operands)) fault words) :
      DecodedAs kinds cursor
        ⟨operands, cursor.advance (Operand.listSize operands + words), some fault⟩

namespace OperandKind

/-- A decode reads the group of its kind, or fails behind operands that it did read. -/
theorem decode_decodedAs (kind : OperandKind) (cursor : Cursor) :
    DecodedAs [kind] cursor (kind.decode cursor) := by
  have accounted := kind.decode_accounted cursor
  generalize kind.decode cursor = decoded at accounted ⊢
  cases accounted with
  | complete spelled groups => exact .complete spelled.readAt groups
  | broken spelled _ unread => exact .failed spelled.readAt unread.headFault

end OperandKind

end SpirvInspector
