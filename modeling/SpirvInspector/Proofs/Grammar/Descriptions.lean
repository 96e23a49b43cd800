import SpirvInspector.Proofs.Decode.Shortfall
import SpirvInspector.Proofs.Text.BitSet

/-!
# Descriptions of enumerated values

In every table the symbols can be told from each other and from hexadecimal, so that a description
can be read back and no two values share one. A value that the decoder takes consists of values that
the table knows, and is described by their symbols alone.
-/

set_option autoImplicit false

namespace SpirvInspector

open Text

def Enumerant.bitName (enumerant : Enumerant) : BitName :=
  ⟨enumerant.value.toUInt64, ascii enumerant.symbol⟩

namespace OperandKind

variable {kind : OperandKind} {value : UInt32}

def bitNames (kind : OperandKind) : List BitName :=
  kind.enumerants.map Enumerant.bitName

theorem legible_bitNames (kind : OperandKind) : BitSet.Legible kind.bitNames := by
  have distinct : ∀ kind ∈ all, (kind.bitNames.map BitName.symbol).Nodup := by decide +kernel
  have plain : ∀ kind ∈ all, ∀ name ∈ kind.bitNames,
      124 ∉ name.symbol ∧ ¬ascii "0x" <+: name.symbol := by decide +kernel
  have isKind := kind.mem_all
  constructor
  · exact distinct kind isKind
  · intro name isName
    exact (plain kind isKind name isName).1
  · intro name isName
    exact (plain kind isKind name isName).2

theorem mem_of_enumerant? {enumerant : Enumerant} (known : kind.enumerant? value = some enumerant) :
    enumerant ∈ kind.enumerants ∧ enumerant.value = value :=
  ⟨List.mem_of_find?_eq_some known, by simpa using List.find?_some known⟩

theorem describe_of_bits {enumerants : List Enumerant} (shape : kind.shape = .bits enumerants)
    (value : UInt32) : kind.describe value = BitSet.expand value.toUInt64 kind.bitNames := by
  unfold describe bitNames OperandKind.enumerants
  rw [shape]
  rfl

theorem describe_of_choice {enumerants : List Enumerant} (shape : kind.shape = .choice enumerants)
    (value : UInt32) :
    kind.describe value = (kind.enumerant? value).elim (hexMarked value.toNat)
      fun enumerant => ascii enumerant.symbol := by
  unfold describe
  rw [shape]
  cases kind.enumerant? value <;> rfl

/-- A description is read back by the names of its kind. -/
theorem readBack_describe (isEnumerated : kind.shape.isEnumerated = true) (value : UInt32) :
    BitSet.readBack kind.bitNames (kind.describe value) = value.toUInt64 := by
  have legible := kind.legible_bitNames
  cases shape : kind.shape with
  | bits enumerants =>
    rw [describe_of_bits shape]
    exact (BitSet.describes_expand _ _).readBack_eq legible
  | choice enumerants =>
    rw [describe_of_choice shape]
    cases known : kind.enumerant? value with
    | some enumerant =>
      obtain ⟨isEnumerant, rfl⟩ := mem_of_enumerant? known
      have isName : enumerant.bitName ∈ kind.bitNames := List.mem_map_of_mem isEnumerant
      exact (BitSet.readBack_part (legible.barless _ isName)).trans
        (BitSet.partMask_symbol legible isName)
    | none =>
      have hexadecimal : Hexadecimal value.toUInt64.toNat (hexMarked value.toNat) :=
        hexadecimal_hexMarked value.toNat
      exact (BitSet.readBack_part (BitSet.bar_notMem_hexadecimal hexadecimal)).trans
        (BitSet.partMask_hexadecimal legible hexadecimal)
  | _ => simp [shape, OperandShape.isEnumerated] at isEnumerated

/-- The decoder takes a value for one of the kind: it makes an operand of it, whatever comes of the
parameters. -/
def Accepts (kind : OperandKind) (value : UInt32) : Prop :=
  ∃ cursor later, (kind.decode cursor).operands = ⟨.listed kind, .enumerated value⟩ :: later

/-- The decoder knows all that a value which it takes consists of. -/
theorem Accepts.known (accepts : kind.Accepts value)
    (isEnumerated : kind.shape.isEnumerated = true) :
    ∀ part ∈ kind.valuesIn value, kind.enumerant? part ≠ none := by
  obtain ⟨cursor, later, operands⟩ := accepts
  have begun := decodeWith_begun decode kind cursor
  rw [← decode_eq_decodeWith] at begun
  generalize kind.decode cursor = decoded at begun operands
  cases begun with
  | failed => cases operands
  | read spelled opens =>
    cases opens with
    | choice shape known =>
      cases operands
      intro part isPart
      rw [valuesIn, shape] at isPart
      rw [List.mem_singleton.mp isPart, known]
      exact Option.some_ne_none _
    | bits shape known =>
      cases operands
      rw [valuesIn, shape]
      have both := known.imp fun part enumerant isKnown =>
        And.intro (Option.ne_none_iff_exists'.mpr ⟨enumerant, isKnown⟩) isKnown
      exact ((List.forall₂_and_left _ _).mp both).1
    | _ => simp [*, OperandShape.isEnumerated] at isEnumerated

/-- Every table of bits has a symbol for zero. -/
theorem zero_mem_bitNames {enumerants : List Enumerant} (shape : kind.shape = .bits enumerants) :
    ∃ name ∈ kind.bitNames, name.mask = 0 := by
  have every : ∀ kind ∈ all, kind.shape = .bits kind.enumerants →
      ∃ name ∈ kind.bitNames, name.mask = 0 := by decide +kernel
  apply every kind kind.mem_all
  rw [OperandKind.enumerants, shape]
  rfl

/-- Where each bit of a value is known, the names claim all of them. -/
theorem remainder_eq_zero {enumerants : List Enumerant} {claimed : List BitName}
    {remainder : UInt64} (shape : kind.shape = .bits enumerants)
    (known : ∀ part ∈ kind.valuesIn value, kind.enumerant? part ≠ none)
    (claims : BitSet.Claims value.toUInt64 kind.bitNames claimed remainder) : remainder = 0 := by
  by_contra remains
  have some : remainder.toNat ≠ 0 := fun none => remains (UInt64.toNat_inj.mp none)
  obtain ⟨position, isLeft⟩ := Nat.exists_testBit_of_ne_zero some
  have isSet : value.toNat.testBit position = true := by
    have complete := congrArg UInt64.toNat claims.complete
    rw [UInt64.toNat_or, UInt32.toNat_toUInt64] at complete
    rw [← complete, Nat.testBit_or, isLeft, Bool.or_true]
  have short : position < 32 := by
    by_contra long
    have large : 2 ^ 32 ≤ 2 ^ position := Nat.pow_le_pow_right (by decide) (Nat.le_of_not_lt long)
    have bound : value.toNat < 2 ^ 32 := value.toNat_lt
    rw [Nat.testBit_lt_two_pow (Nat.lt_of_lt_of_le bound large)] at isSet
    cases isSet
  have isBit : UInt32.ofNat (2 ^ position) ∈ kind.valuesIn value := by
    rw [valuesIn, shape]
    exact mem_setBits_iff.mpr ⟨position, short, rfl, isSet⟩
  obtain ⟨enumerant, isKnown⟩ := Option.ne_none_iff_exists'.mp (known _ isBit)
  obtain ⟨isEnumerant, isValue⟩ := mem_of_enumerant? isKnown
  have mask : enumerant.bitName.mask.toNat = 2 ^ position := by
    rw [Enumerant.bitName, isValue, UInt32.toNat_toUInt64, toNat_two_pow short]
  refine claims.exhausted _ (List.mem_map_of_mem isEnumerant) ?_ ?_
  · intro none
    rw [none] at mask
    exact Nat.ne_of_lt (Nat.two_pow_pos position) mask
  · apply UInt64.toNat_inj.mp
    rw [UInt64.toNat_and, mask, Nat.and_two_pow, isLeft]
    exact Nat.one_mul _

/-- A value is described by symbols of its table only, none of which looks like hexadecimal. -/
def Named (kind : OperandKind) (value : UInt32) : Prop :=
  ∃ chosen : List Enumerant, chosen ≠ [] ∧ chosen.Sublist kind.enumerants ∧
    kind.describe value =
      (ascii "|").intercalate (chosen.map fun enumerant => ascii enumerant.symbol) ∧
    ∀ enumerant ∈ chosen, ¬ascii "0x" <+: ascii enumerant.symbol

theorem named_of_sublist {chosen : List Enumerant} (some : chosen ≠ [])
    (ordered : chosen.Sublist kind.enumerants)
    (described : kind.describe value =
      (ascii "|").intercalate (chosen.map fun enumerant => ascii enumerant.symbol)) :
    kind.Named value := by
  refine ⟨chosen, some, ordered, described, ?_⟩
  intro enumerant isChosen
  exact kind.legible_bitNames.unmarked _ (List.mem_map_of_mem (ordered.subset isChosen))

theorem named_of_mem {enumerant : Enumerant} (isEnumerant : enumerant ∈ kind.enumerants)
    (described : kind.describe value = ascii enumerant.symbol) : kind.Named value :=
  named_of_sublist (List.cons_ne_nil enumerant []) (List.singleton_sublist.mpr isEnumerant)
    (described.trans (List.intercalate_singleton ..).symm)

theorem Accepts.named (accepts : kind.Accepts value)
    (isEnumerated : kind.shape.isEnumerated = true) : kind.Named value := by
  have known := accepts.known isEnumerated
  cases shape : kind.shape with
  | bits enumerants =>
    have describes := BitSet.describes_expand value.toUInt64 kind.bitNames
    have described := describe_of_bits shape value
    rw [← described] at describes
    generalize text : kind.describe value = description at describes
    cases describes with
    | @exact before behind name split first same =>
      have isName : name ∈ kind.bitNames := by simp [split]
      obtain ⟨enumerant, isEnumerant, rfl⟩ := List.mem_map.mp isName
      exact named_of_mem isEnumerant text
    | zero isZero unnamed =>
      obtain ⟨name, isName, none⟩ := zero_mem_bitNames shape
      exact (unnamed name isName (none.trans isZero.symm)).elim
    | @parts claimed remainder leftover nonzero unnamed claims rest =>
      have some := claims.parts_ne_nil rest nonzero
      obtain rfl := remainder_eq_zero shape known claims
      obtain ⟨chosen, ordered, rfl⟩ := List.sublist_map_iff.mp claims.ordered
      cases rest with
      | shown remains => exact (remains rfl).elim
      | nothing =>
        rw [List.append_nil, List.map_map] at some text
        exact named_of_sublist (by simpa using some) ordered text
  | choice enumerants =>
    have isPart : value ∈ kind.valuesIn value := by
      rw [valuesIn, shape]
      exact List.mem_singleton_self value
    obtain ⟨enumerant, isKnown⟩ := Option.ne_none_iff_exists'.mp (known value isPart)
    apply named_of_mem (mem_of_enumerant? isKnown).1
    rw [describe_of_choice shape, isKnown, Option.elim_some]
  | _ => simp [shape, OperandShape.isEnumerated] at isEnumerated

/-- No two values of a kind share a description, and whatever the decoder takes is described by
symbols. -/
theorem describe_faithful (isEnumerated : kind.shape.isEnumerated = true) :
    (∀ first second, kind.describe first = kind.describe second → first = second) ∧
      ∀ value, kind.Accepts value → kind.Named value := by
  constructor
  · intro first second same
    have values := congrArg (BitSet.readBack kind.bitNames) same
    rw [readBack_describe isEnumerated, readBack_describe isEnumerated] at values
    exact UInt32.toUInt64_inj.mp values
  · intro value accepts
    exact accepts.named isEnumerated

/-- An access with two bits, of which one has a parameter. -/
theorem describe_alignedVolatile :
    memoryAccess.shape.isEnumerated = true ∧ memoryAccess.Accepts 3 ∧ memoryAccess.Named 3 ∧
      memoryAccess.describe 3 = ascii "Volatile|Aligned" ∧
      memoryAccess.describe 3 ≠ memoryAccess.describe 11 := by
  have accepts : memoryAccess.Accepts 3 :=
    ⟨.ofBytes [3, 0, 0, 0, 8, 0, 0, 0] .little, [⟨.listed .literalInteger, .number32 8⟩], by decide⟩
  have isEnumerated : memoryAccess.shape.isEnumerated = true := rfl
  obtain ⟨injective, named⟩ := describe_faithful isEnumerated
  refine ⟨isEnumerated, accepts, named 3 accepts, by decide, ?_⟩
  intro same
  exact absurd (injective 3 11 same) (by decide)

end OperandKind

end SpirvInspector
