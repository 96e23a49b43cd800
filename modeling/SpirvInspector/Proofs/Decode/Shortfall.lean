import Mathlib.Data.Nat.Bitwise
import SpirvInspector.Proofs.Decode.Accounting
import SpirvInspector.Proofs.Decode.Appending

/-!
# What a failed decode leaves behind

A decode that throws has appended the operands it read in full and nothing else. The cursor stands
behind the words of these operands, and behind those words only that show the fault: the one that
holds an unknown value, or all that remain where a string does not end.
-/

set_option autoImplicit false

namespace SpirvInspector

namespace OperandKind

theorem shiftLeft_position {position : Nat} (short : position < 32) :
    (1 : UInt32) <<< position.toUInt32 = UInt32.ofNat (2 ^ position) := by
  have every : ∀ position < 32,
      (1 : UInt32) <<< (Nat.toUInt32 position) = UInt32.ofNat (2 ^ position) := by decide
  exact every position short

theorem toNat_two_pow {position : Nat} (short : position < 32) :
    (UInt32.ofNat (2 ^ position)).toNat = 2 ^ position := by
  have bound : 2 ^ position < 2 ^ 32 := Nat.pow_lt_pow_right (by decide) short
  exact UInt32.toNat_ofNat_of_lt' bound

/-- A word has a bit in common with a power of two where its binary digit is one. -/
theorem and_two_pow_ne_zero_iff (word : UInt32) {position : Nat} (short : position < 32) :
    word &&& UInt32.ofNat (2 ^ position) ≠ 0 ↔ word.toNat.testBit position = true := by
  have masked : (word &&& UInt32.ofNat (2 ^ position)).toNat =
      (word.toNat.testBit position).toNat * 2 ^ position := by
    rw [UInt32.toNat_and, toNat_two_pow short, Nat.and_two_pow]
  rw [Ne, ← UInt32.toNat_inj, masked]
  cases word.toNat.testBit position <;> simp

theorem mem_setBits_iff {word bit : UInt32} :
    bit ∈ setBits word ↔
      ∃ position < 32, bit = UInt32.ofNat (2 ^ position) ∧
        word.toNat.testBit position = true := by
  unfold setBits
  simp only [List.mem_filter, List.mem_map, List.mem_range, bne_iff_ne]
  constructor
  · rintro ⟨⟨position, short, rfl⟩, isSet⟩
    rw [shiftLeft_position short] at isSet ⊢
    exact ⟨position, short, rfl, (and_two_pow_ne_zero_iff word short).mp isSet⟩
  · rintro ⟨position, short, rfl, isSet⟩
    exact ⟨⟨position, short, shiftLeft_position short⟩,
      (and_two_pow_ne_zero_iff word short).mpr isSet⟩

theorem pairwise_setBits (word : UInt32) : (setBits word).Pairwise (· < ·) := by
  have ascending : ((List.range 32).map fun position =>
      (1 : UInt32) <<< position.toUInt32).Pairwise (· < ·) := by decide
  exact ascending.filter _

/-- `kind.Reports word value`: the value stands for what the kind does not know of a word. -/
inductive Reports (kind : OperandKind) (word : UInt32) : UInt32 → Prop
  | value {enumerants : List Enumerant} (shape : kind.shape = .choice enumerants)
      (isUnknown : kind.enumerant? word = none) : Reports kind word word
  /-- The lowest of the set bits that are unknown. -/
  | bit {enumerants : List Enumerant} {position : Nat} (shape : kind.shape = .bits enumerants)
      (isSet : word.toNat.testBit position = true)
      (isUnknown : kind.enumerant? (UInt32.ofNat (2 ^ position)) = none)
      (lowest : ∀ lower < position, word.toNat.testBit lower = true →
        kind.enumerant? (UInt32.ofNat (2 ^ lower)) ≠ none) :
      Reports kind word (UInt32.ofNat (2 ^ position))

/-- The bits of a word ascend, so that the first unknown one is the lowest. -/
theorem reports_of_setBits {kind : OperandKind} {enumerants : List Enumerant} {word value : UInt32}
    {before behind : List UInt32} (shape : kind.shape = .bits enumerants)
    (values : setBits word = before ++ value :: behind)
    (known : ∀ value ∈ before, kind.enumerant? value ≠ none)
    (isUnknown : kind.enumerant? value = none) : kind.Reports word value := by
  have isBit : value ∈ setBits word := by simp [values]
  obtain ⟨position, short, rfl, isSet⟩ := mem_setBits_iff.mp isBit
  apply Reports.bit shape isSet isUnknown
  intro lower below isLowerSet
  have lowerShort := Nat.lt_trans below short
  have smaller : UInt32.ofNat (2 ^ lower) < UInt32.ofNat (2 ^ position) := by
    rw [UInt32.lt_iff_toNat_lt, toNat_two_pow lowerShort, toNat_two_pow short]
    exact Nat.pow_lt_pow_right (by decide) below
  have isLower : UInt32.ofNat (2 ^ lower) ∈ setBits word :=
    mem_setBits_iff.mpr ⟨lower, lowerShort, rfl, isLowerSet⟩
  have ascending := pairwise_setBits word
  rw [values] at ascending isLower
  obtain ⟨-, fromValue, -⟩ := List.pairwise_append.mp ascending
  rcases List.mem_append.mp isLower with isBefore | isBehind
  · exact known _ isBefore
  · intro _
    rcases List.mem_cons.mp isBehind with same | later
    · rw [same] at smaller
      exact UInt32.lt_irrefl _ smaller
    · exact UInt32.lt_irrefl _ (UInt32.lt_trans smaller (List.rel_of_pairwise_cons fromValue later))

theorem reports_of_valuesIn {kind : OperandKind} {word value : UInt32} {before behind : List UInt32}
    (isEnumerated : kind.shape.isEnumerated = true)
    (values : kind.valuesIn word = before ++ value :: behind)
    (known : ∀ value ∈ before, kind.enumerant? value ≠ none)
    (isUnknown : kind.enumerant? value = none) : kind.Reports word value := by
  cases shape : kind.shape with
  | bits enumerants =>
    rw [valuesIn, shape] at values
    exact reports_of_setBits shape values known isUnknown
  | choice enumerants =>
    rw [valuesIn, shape] at values
    obtain ⟨-, rfl, -⟩ : before = [] ∧ word = value ∧ behind = [] := by
      cases before <;> simp_all
    exact .value shape isUnknown
  | _ => simp [shape, OperandShape.isEnumerated] at isEnumerated

end OperandKind

/-- `Shortfall place leaf fault extra`: a decode fails at a place where an operand of the kind
`leaf` is to be read, `extra` words further on. -/
structure Shortfall (place : Cursor) (leaf : OperandKind) (fault : Fault) (extra : Nat) : Prop where
  code : fault.code ∈ [.enumerantUnknown, .literalWidthUnsupported, .limitReached, .streamExpected]
  unknown : fault.code = .enumerantUnknown →
    extra = 1 ∧ fault.offset = place.offset ∧ fault.kind = some (.listed leaf) ∧
      ∃ word : Word, place.rest.take 4 = word.bytesIn place.order ∧ leaf.Reports word fault.value
  tooWide : fault.code = .literalWidthUnsupported → extra = 0 ∧ leaf.shape = .contextNumber
  /-- The words that go by without an end are those of a string. -/
  exhausted : fault.code = .limitReached ∨ fault.code = .streamExpected →
    fault.offset = (place.advance extra).offset ∧ place.limitRemaining = extra ∧
      (leaf.shape ≠ .string → extra = 0) ∧ 0 ∉ place.rest.take (4 * extra)

namespace Shortfall

variable {place : Cursor} {leaf : OperandKind} {extra : Nat}

theorem ofExhaustion (all : place.limitRemaining = extra)
    (unread : leaf.shape ≠ .string → extra = 0) (nulFree : 0 ∉ place.rest.take (4 * extra)) :
    Shortfall place leaf (place.advance extra).exhaustion extra := by
  unfold Cursor.exhaustion
  split
  · exact ⟨by simp [Fault.limitReached], nofun, nofun, fun _ => ⟨rfl, all, unread, nulFree⟩⟩
  · exact ⟨by simp [Fault.streamExpected], nofun, nofun, fun _ => ⟨rfl, all, unread, nulFree⟩⟩

theorem ofUnread {fault : Fault} (unread : Unread leaf place fault extra) :
    Shortfall place leaf fault extra := by
  cases unread with
  | drained notString empty => simpa using ofExhaustion empty (fun _ => rfl) (by simp)
  | unterminated isString nulFree =>
    exact ofExhaustion rfl (fun notString => (notString isString).elim) nulFree
  | @unknown word value before behind isEnumerated _ _ bytes values known isUnknown =>
    have reports := OperandKind.reports_of_valuesIn isEnumerated values known isUnknown
    exact ⟨List.mem_cons_self, fun _ => ⟨rfl, rfl, rfl, word, bytes, reports⟩, nofun, nofun⟩
  | tooWide shape wide =>
    exact ⟨List.mem_cons_of_mem _ List.mem_cons_self, nofun, fun _ => ⟨rfl, shape⟩, nofun⟩

end Shortfall

theorem Unread.within {kind : OperandKind} {cursor : Cursor} {fault : Fault} {words : Nat}
    (unread : Unread kind cursor fault words) : words ≤ cursor.limitRemaining := by
  cases unread with
  | drained => exact Nat.zero_le _
  | unterminated => exact Nat.le_refl _
  | unknown _ available => exact available
  | tooWide => exact Nat.zero_le _

/-- A decode that throws leaves the list it appends to as it was, with the operands behind it that
were read. All words that the cursor went over are words of these operands, or show the fault. -/
theorem decodeInto_shortfall (kind : OperandKind) {held : List Operand} {cursor : Cursor}
    {fault : Fault} {after : Filling}
    (thrown : kind.decodeInto ⟨held, cursor⟩ = (.error fault, after)) :
    ∃ appended leaf extra,
      after = ⟨held ++ appended, cursor.advance (Operand.listSize appended + extra)⟩ ∧
      kind.decodeInto ⟨[], cursor⟩ = (.error fault, ⟨appended, after.cursor⟩) ∧
      SpelledAt cursor appended ∧
      Operand.listSize appended + extra ≤ cursor.limitRemaining ∧
      BreaksOff [kind] appended leaf ∧
      Shortfall (cursor.advance (Operand.listSize appended)) leaf fault extra := by
  have fromEmpty := kind.decodeInto_eq ⟨[], cursor⟩
  have accounted := kind.decode_accounted cursor
  rw [OperandKind.decodeInto_eq] at thrown
  generalize kind.decode cursor = decoded at thrown fromEmpty accounted
  cases accounted with
  | complete spelled groups => cases thrown
  | @broken appended leaf _ extra spelled breaks unread =>
    cases thrown
    have enough := unread.within
    rw [Cursor.limitRemaining_advance] at enough
    have within := spelled.within
    exact ⟨appended, leaf, extra, rfl, fromEmpty, spelled, by omega, breaks, .ofUnread unread⟩

/-- A decoration, and behind it a name that does not end within the window. -/
def endlessName : Cursor :=
  ⟨[0, 0, 0, 41, 102, 111, 111, 98, 97, 114, 0, 0], 24, some 2, .big⟩

def linkageAttributes : Operand :=
  ⟨.listed .decoration, .enumerated 41⟩

theorem decodeInto_endlessName :
    ∃ leaf,
      OperandKind.decoration.decodeInto ⟨[⟨.listed .idRef, .id 7⟩], endlessName⟩ =
        (.error (.limitReached 32),
          ⟨[⟨.listed .idRef, .id 7⟩, linkageAttributes], endlessName.advance 2⟩) ∧
      BreaksOff [.decoration] [linkageAttributes] leaf ∧
      Shortfall (endlessName.advance 1) leaf (.limitReached 32) 1 := by
  have thrown : OperandKind.decoration.decodeInto ⟨[⟨.listed .idRef, .id 7⟩], endlessName⟩ =
      (.error (.limitReached 32),
        ⟨[⟨.listed .idRef, .id 7⟩, linkageAttributes], endlessName.advance 2⟩) := by rfl
  obtain ⟨appended, leaf, extra, after, -, -, -, breaks, shortfall⟩ :=
    decodeInto_shortfall .decoration thrown
  obtain rfl : appended = [linkageAttributes] := by
    simpa [eq_comm] using congrArg Filling.operands after
  obtain rfl : extra = 1 := by
    have offsets := congrArg (fun filling => filling.cursor.offset) after
    simp only [Cursor.offset_advance, Operand.listSize_singleton, linkageAttributes, Operand.size]
      at offsets
    omega
  exact ⟨leaf, thrown, breaks, shortfall⟩

end SpirvInspector
