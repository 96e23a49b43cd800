import SpirvInspector.Proofs.Format.ByteOrder
import SpirvInspector.Proofs.Format.Conformity

/-!
# Every word of a decode is accounted for

In either byte order, a decode that completes has read the groups of operands that the grammar asks
for, from exactly the words they are written as. A decode that fails has read some operands of such
groups in full, and the words of theirs. It breaks off at the operand behind them, of which it can
have read the words of a string without an end or a word that is unknown.
-/

set_option autoImplicit false

namespace SpirvInspector

namespace OperandKind

/-- The enumerant values that a word of the kind stands for. -/
def valuesIn (kind : OperandKind) (word : UInt32) : List UInt32 :=
  match kind.shape with
  | .bits _ => setBits word
  | _ => [word]

end OperandKind

/-- The operands that the next words at a cursor spell in its order, none of them beyond its
limit. -/
structure SpelledAt (cursor : Cursor) (operands : List Operand) : Prop where
  within : Operand.listSize operands ≤ cursor.limitRemaining
  spelled : Spells (Operand.listCellsIn cursor.order operands)
    (cursor.rest.take (4 * Operand.listSize operands))

namespace SpelledAt

theorem nil (cursor : Cursor) : SpelledAt cursor [] :=
  ⟨Nat.zero_le _, .nil⟩

theorem append {cursor : Cursor} {front back : List Operand} (first : SpelledAt cursor front)
    (second : SpelledAt (cursor.advance (Operand.listSize front)) back) :
    SpelledAt cursor (front ++ back) := by
  obtain ⟨firstWithin, firstSpelled⟩ := first
  obtain ⟨secondWithin, secondSpelled⟩ := second
  rw [Cursor.limitRemaining_advance] at secondWithin
  constructor
  · rw [Operand.listSize_append]
    omega
  · rw [Operand.listCellsIn_append, Operand.listSize_append, Nat.mul_add, List.take_add]
    exact firstSpelled.append secondSpelled

theorem ofWord {cursor : Cursor} {operand : Operand} {word : Word} (size : operand.size = 1)
    (cells : operand.cellsIn cursor.order = (word.bytesIn cursor.order).map .data)
    (available : 0 < cursor.limitRemaining)
    (bytes : cursor.rest.take 4 = word.bytesIn cursor.order) : SpelledAt cursor [operand] := by
  constructor
  · rw [Operand.listSize_singleton, size]
    exact available
  · rw [Operand.listSize_singleton, size, Operand.listCellsIn_singleton, cells, Spells.data_iff]
    exact bytes

end SpelledAt

/-- `Unread kind cursor fault words`: no operand of the kind is read at the cursor, and so many
words go by before that is known. -/
inductive Unread (kind : OperandKind) (cursor : Cursor) : Fault → Nat → Prop
  | drained (notString : kind.shape ≠ .string) (empty : cursor.limitRemaining = 0) :
      Unread kind cursor cursor.exhaustion 0
  | unterminated (isString : kind.shape = .string)
      (nulFree : 0 ∉ cursor.rest.take (4 * cursor.limitRemaining)) :
      Unread kind cursor (cursor.advance cursor.limitRemaining).exhaustion cursor.limitRemaining
  | unknown {word : Word} {value : UInt32} {before behind : List UInt32}
      (isEnumerated : kind.shape.isEnumerated = true) (available : 0 < cursor.limitRemaining)
      (read : cursor.nextWord = (.ok word, cursor.advance 1))
      (bytes : cursor.rest.take 4 = word.bytesIn cursor.order)
      (values : kind.valuesIn word = before ++ value :: behind)
      (known : ∀ value ∈ before, kind.enumerant? value ≠ none)
      (isUnknown : kind.enumerant? value = none) :
      Unread kind cursor (.enumerantUnknown cursor.offset kind value) 1
  | tooWide (shape : kind.shape = .contextNumber) (wide : 2 < cursor.limitRemaining) :
      Unread kind cursor
        (.literalWidthUnsupported cursor.offset kind (UInt32.ofNat cursor.limitRemaining)) 0

/-- What a decode does at its first operand, whatever decodes the parts behind it. -/
inductive Begun (kind : OperandKind) (cursor : Cursor) (decode : OperandKind → Cursor → Decoded) :
    Decoded → Prop
  | read {head : List Operand} {parts : List OperandKind} (spelled : SpelledAt cursor head)
      (opens : Opens kind head parts) :
      Begun kind cursor decode
        (Decoded.andThen ⟨head, cursor.advance (Operand.listSize head), none⟩
          (.sequence decode parts))
  | failed {fault : Fault} {words : Nat} (single : kind.shape.members = [])
      (unread : Unread kind cursor fault words) :
      Begun kind cursor decode ⟨[], cursor.advance words, some fault⟩

namespace Decoded

theorem andThen_sequence_nil (decoded : Decoded) (decode : OperandKind → Cursor → Decoded) :
    decoded.andThen (sequence decode []) = decoded := by
  cases decoded with
  | mk operands cursor fault => cases fault <;> simp [andThen, sequence, nothing]

end Decoded

namespace Begun

variable {kind : OperandKind} {cursor : Cursor} {decode : OperandKind → Cursor → Decoded}

theorem whole {operand : Operand} (spelled : SpelledAt cursor [operand])
    (opens : Opens kind [operand] []) :
    Begun kind cursor decode ⟨[operand], cursor.advance operand.size, none⟩ := by
  have begun : Begun kind cursor decode _ := .read spelled opens
  rw [Decoded.andThen_sequence_nil] at begun
  simpa using begun

theorem exhausted (single : kind.shape.members = []) (notString : kind.shape ≠ .string)
    (empty : cursor.limitRemaining = 0) :
    Begun kind cursor decode ⟨[], cursor, some cursor.exhaustion⟩ := by
  have begun : Begun kind cursor decode _ := .failed single (.drained notString empty)
  simpa using begun

theorem ofWord {value : Word → OperandValue} (single : kind.shape.members = [])
    (notString : kind.shape ≠ .string)
    (opens : ∀ word, Opens kind [⟨.listed kind, value word⟩] [])
    (size : ∀ word, Operand.size ⟨.listed kind, value word⟩ = 1)
    (cells : ∀ word, Operand.cellsIn cursor.order ⟨.listed kind, value word⟩ =
      (word.bytesIn cursor.order).map .data) :
    Begun kind cursor decode (.ofReading kind value cursor.nextWord) := by
  rcases cursor.nextWord_spelled with ⟨available, word, read, bytes⟩ | ⟨empty, failed⟩
  · rw [read, Decoded.ofReading, ← size word]
    exact whole (.ofWord (size word) (cells word) available bytes) (opens word)
  · rw [failed, Decoded.ofReading]
    exact exhausted single notString empty

theorem ofContextNumber (shape : kind.shape = .contextNumber) :
    Begun kind cursor decode (kind.decodeContextNumber cursor) := by
  have single : kind.shape.members = [] := by rw [shape]; rfl
  have short : Begun kind cursor decode (.ofReading kind .number32 cursor.nextWord) := by
    apply ofWord single (by simp [shape]) (fun word => .shortNumber shape word)
    · intro word
      rfl
    · intro word
      rfl
  unfold OperandKind.decodeContextNumber
  split
  · exact short
  · exact short
  · next two =>
    have available : 2 ≤ cursor.limitRemaining := by omega
    have long := cursor.length_of_limitRemaining
    have double : (cursor.rest.take 8).length = 4 * 2 := by
      rw [List.length_take]
      omega
    rw [Cursor.nextWords_of_le available]
    refine whole ⟨by simpa [Operand.size] using available, ?_⟩ (.longNumber shape _)
    rw [Operand.listCellsIn_singleton,
      Operand.cellsIn_number64 _ _ (Word.length_ofBytes _ double),
      Word.flatMap_bytesIn_ofBytes _ double, Spells.data_iff]
    rfl
  · next notZero notOne notTwo =>
    have wide : 2 < cursor.limitRemaining := by
      have : cursor.limitRemaining % 0x100000000 ≠ 0 := notZero
      have : cursor.limitRemaining % 0x100000000 ≠ 1 := notOne
      have : cursor.limitRemaining % 0x100000000 ≠ 2 := notTwo
      omega
    have begun : Begun kind cursor decode _ := .failed single (.tooWide shape wide)
    rw [show UInt32.ofNat (cursor.limitRemaining % 0x100000000) =
      UInt32.ofNat cursor.limitRemaining from UInt32.ofNat_mod_size]
    simpa using begun

theorem ofString (shape : kind.shape = .string) :
    Begun kind cursor decode (.ofReading kind .string cursor.nextString) := by
  cases read : cursor.nextString with
  | mk result behind =>
    have reading := cursor.nextString_reading
    rw [read] at reading
    cases reading with
    | terminated text filler nulFree within bytes =>
      refine whole ⟨by simpa [Operand.size] using within, ?_⟩ (.string shape text nulFree)
      have long := cursor.length_of_limitRemaining
      have padded := congrArg List.length bytes
      simp only [List.length_take, List.length_append, List.length_cons] at padded
      simp only [Operand.listCellsIn_singleton, Operand.listSize_singleton, Operand.cellsIn,
        Operand.cells, Operand.size, List.nil_append, bytes]
      rw [show text ++ 0 :: filler = (text ++ [0]) ++ filler by simp]
      refine ((Spells.data_iff _ _).mpr rfl).append ((Spells.filler_iff _ _).mpr ?_)
      unfold Bytes.stringWords at padded within
      omega
    | unterminated nulFree => exact .failed (by rw [shape]; rfl) (.unterminated shape nulFree)

theorem ofEnumerated (isEnumerated : kind.shape.isEnumerated = true)
    (opens : ∀ word chosen, kind.enumerantsOf (kind.valuesIn word) = .ok chosen →
      Opens kind [⟨.listed kind, .enumerated word⟩] (chosen.flatMap Enumerant.parameters)) :
    Begun kind cursor decode (kind.decodeEnumerated decode kind.valuesIn cursor) := by
  have single : kind.shape.members = [] := by
    cases shape : kind.shape <;> simp_all [OperandShape.isEnumerated, OperandShape.members]
  have notString : kind.shape ≠ .string := by
    intro isString
    simp [isString, OperandShape.isEnumerated] at isEnumerated
  unfold OperandKind.decodeEnumerated
  rcases cursor.nextWord_spelled with ⟨available, word, read, bytes⟩ | ⟨empty, failed⟩
  · rw [read]
    cases found : kind.enumerantsOf (kind.valuesIn word) with
    | error unknown =>
      obtain ⟨isUnknown, before, behind, values, known⟩ :=
        OperandKind.exists_of_enumerantsOf_eq_error found
      simp only [found]
      exact .failed single (.unknown isEnumerated available read bytes values known isUnknown)
    | ok chosen =>
      simp only [found]
      exact .read (.ofWord rfl rfl available bytes) (opens word chosen found)
  · rw [failed]
    exact exhausted single notString empty

end Begun

namespace OperandKind

theorem decodeWith_begun (decode : OperandKind → Cursor → Decoded) (kind : OperandKind)
    (cursor : Cursor) : Begun kind cursor decode (decodeWith decode kind cursor) := by
  unfold decodeWith
  split
  · next shape =>
    exact .ofWord (by rw [shape]; rfl) (by simp [shape]) (fun word => .id shape word)
      (fun _ => rfl) fun _ => rfl
  · next shape =>
    exact .ofWord (by rw [shape]; rfl) (by simp [shape]) (fun word => .number shape word)
      (fun _ => rfl) fun _ => rfl
  · next shape => exact .ofContextNumber shape
  · next shape => exact .ofString shape
  · next enumerants shape =>
    have values : kind.valuesIn = setBits := by
      funext word
      rw [valuesIn, shape]
    rw [← values]
    apply Begun.ofEnumerated (by rw [shape]; rfl)
    intro word chosen found
    rw [values] at found
    exact .bits shape (enumerantsOf_eq_ok_iff.mp found)
  · next enumerants shape =>
    have values : kind.valuesIn = fun value => [value] := by
      funext word
      rw [valuesIn, shape]
    rw [← values]
    apply Begun.ofEnumerated (by rw [shape]; rfl)
    intro word chosen found
    rw [values] at found
    obtain ⟨enumerant, rest, known, none, rfl⟩ :=
      List.forall₂_cons_left_iff.mp (enumerantsOf_eq_ok_iff.mp found)
    cases none
    simpa using Opens.choice shape known
  · next first second shape =>
    have begun : Begun kind cursor decode _ := .read (.nil cursor) (.pair shape)
    simpa [Decoded.andThen] using begun

end OperandKind

/-- `BreaksOff kinds operands kind`: the groups that a list of kinds asks for, broken off after some
operands where an operand of the one kind comes next. -/
inductive BreaksOff : List OperandKind → List Operand → OperandKind → Prop
  | here {kind : OperandKind} {kinds : List OperandKind} (single : kind.shape.members = []) :
      BreaksOff (kind :: kinds) [] kind
  | inside {kind leaf : OperandKind} {parts kinds : List OperandKind} {head inner : List Operand}
      (opens : Opens kind head parts) (parameters : BreaksOff parts inner leaf) :
      BreaksOff (kind :: kinds) (head ++ inner) leaf
  | behind {kind leaf : OperandKind} {kinds : List OperandKind} {group later : List Operand}
      (first : Groups [kind] group) (others : BreaksOff kinds later leaf) :
      BreaksOff (kind :: kinds) (group ++ later) leaf

/-- More kinds to come do not matter where a list of kinds is broken off. -/
theorem BreaksOff.append {kinds : List OperandKind} {operands : List Operand} {leaf : OperandKind}
    (breaks : BreaksOff kinds operands leaf) (later : List OperandKind) :
    BreaksOff (kinds ++ later) operands leaf := by
  induction breaks with
  | here single => exact .here single
  | inside opens parameters _ => exact .inside opens parameters
  | behind first _ inductionHypothesis => exact .behind first inductionHypothesis

/-- `Accounted kinds cursor decoded`: how the words between the cursor and the one behind a decode
are spent on the operands that the kinds ask for. -/
inductive Accounted (kinds : List OperandKind) (cursor : Cursor) : Decoded → Prop
  | complete {operands : List Operand} (spelled : SpelledAt cursor operands)
      (groups : Groups kinds operands) :
      Accounted kinds cursor ⟨operands, cursor.advance (Operand.listSize operands), none⟩
  | broken {operands : List Operand} {leaf : OperandKind} {fault : Fault} {words : Nat}
      (spelled : SpelledAt cursor operands) (breaks : BreaksOff kinds operands leaf)
      (unread : Unread leaf (cursor.advance (Operand.listSize operands)) fault words) :
      Accounted kinds cursor
        ⟨operands, cursor.advance (Operand.listSize operands + words), some fault⟩

namespace Accounted

theorem behind {kinds others : List OperandKind} {cursor : Cursor} {front : List Operand}
    {decoded : Decoded} (spelled : SpelledAt cursor front)
    (rest : Accounted others (cursor.advance (Operand.listSize front)) decoded)
    (regroup : ∀ back, Groups others back → Groups kinds (front ++ back))
    (rebreak : ∀ back leaf, BreaksOff others back leaf → BreaksOff kinds (front ++ back) leaf) :
    Accounted kinds cursor { decoded with operands := front ++ decoded.operands } := by
  cases rest with
  | complete spelledBehind groups =>
    simpa using complete (spelled.append spelledBehind) (regroup _ groups)
  | broken spelledBehind breaks unread =>
    rw [Cursor.advance_advance, ← Operand.listSize_append] at unread
    simpa [Nat.add_assoc] using
      broken (spelled.append spelledBehind) (rebreak _ _ breaks) unread

theorem sequence {decode : OperandKind → Cursor → Decoded} {kinds : List OperandKind}
    (each : ∀ kind ∈ kinds, ∀ cursor, Accounted [kind] cursor (decode kind cursor))
    (cursor : Cursor) : Accounted kinds cursor (.sequence decode kinds cursor) := by
  induction kinds generalizing cursor with
  | nil => simpa [Decoded.sequence, Decoded.nothing] using complete (.nil cursor) .nil
  | cons kind kinds inductionHypothesis =>
    have first := each kind List.mem_cons_self cursor
    have others := inductionHypothesis fun other isOther =>
      each other (List.mem_cons_of_mem _ isOther)
    rw [Decoded.sequence]
    generalize decode kind cursor = decoded at first ⊢
    cases first with
    | complete spelled groups =>
      apply behind spelled (others _)
      · intro back groupsBehind
        exact groups.append groupsBehind
      · intro back leaf breaksBehind
        exact .behind groups breaksBehind
    | broken spelled breaks unread => exact .broken spelled (breaks.append kinds) unread

end Accounted

namespace OperandKind

/-- A decode reads the group of its kind, or breaks it off. The induction is on the rank, which
drops from a kind to the parts of its operands. -/
theorem decode_accounted (kind : OperandKind) (cursor : Cursor) :
    Accounted [kind] cursor (kind.decode cursor) := by
  induction rank : kind.rank using Nat.strongRecOn generalizing kind cursor with
  | ind rank inductionHypothesis =>
    subst rank
    have begun := decodeWith_begun decode kind cursor
    rw [← decode_eq_decodeWith] at begun
    generalize kind.decode cursor = decoded at begun ⊢
    cases begun with
    | @read head parts spelled opens =>
      have parameters : ∀ cursor, Accounted parts cursor (.sequence decode parts cursor) :=
        Accounted.sequence fun part isPart cursor =>
          inductionHypothesis part.rank (opens.rank_lt_of_mem_parts isPart) part cursor rfl
      apply Accounted.behind spelled (parameters _)
      · intro inner groups
        exact Groups.single_iff.mpr ⟨head, parts, inner, rfl, opens, groups⟩
      · intro inner leaf breaks
        exact .inside opens breaks
    | @failed fault words single unread =>
      have here : Unread kind (cursor.advance (Operand.listSize [])) fault words := by
        simpa using unread
      simpa using Accounted.broken (.nil cursor) (.here single) here

end OperandKind

end SpirvInspector
