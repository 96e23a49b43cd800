import SpirvInspector.Decode.Operands

/-!
# Decoding that throws

Decoding written as a computation that is left at once when a read fails or when a kind is not found
in the table of kinds. Each kind is looked up before it is decoded, and once more when a fault has
to name it. Since every kind is in the table, all that is ever thrown are the faults of the bytes.
-/

set_option autoImplicit false

namespace SpirvInspector

inductive Thrown
  | fault (fault : Fault)
  /-- A kind that is looked up has no entry. -/
  | unlisted (error : UnlistedKind)
  /-- A word is used that was not read. -/
  | absent
deriving DecidableEq, Repr

theorem Thrown.exists_of_bind {α β : Type} {first : Except Thrown α} {next : α → Except Thrown β}
    {result : β} (done : first >>= next = .ok result) :
    ∃ taken, first = .ok taken ∧ next taken = .ok result := by
  cases first with
  | error thrown => cases done
  | ok taken => exact ⟨taken, rfl, done⟩

namespace OperandKind

/-- The entry that the table has under the ordinal of a kind. -/
def tag (kind : OperandKind) : KindTag :=
  .ofOrdinal (UInt16.ofNat kind.ordinal)

@[simp] theorem tag_eq (kind : OperandKind) : kind.tag = .listed kind := by
  cases kind <;> rfl

end OperandKind

/-- A computation that moves a cursor, unless it throws. -/
abbrev Attempt (α : Type) := StateT Cursor (Except Thrown) α

namespace Attempt

variable {α β : Type}

def read (reader : Cursor → Reading α) : Attempt α := fun cursor =>
  match reader cursor with
  | (.ok result, behind) => .ok (result, behind)
  | (.error fault, _) => .error (.fault fault)

def word : Attempt Word :=
  read Cursor.nextWord

def lookUp (kind : OperandKind) : Attempt OperandKind := fun cursor =>
  match kind.tag.kind with
  | .ok entry => .ok (entry, cursor)
  | .error missing => .error (.unlisted missing)

/-- Throws a fault, whose message names the kind. -/
def fail (code : FaultCode) (offset : Nat) (kind : OperandKind) (value : UInt32) : Attempt α :=
  fun _ =>
    match Fault.make code offset (some kind.tag) value with
    | .ok fault => .error (.fault fault)
    | .error missing => .error (.unlisted missing)

def contextNumber (kind : OperandKind) : Attempt (List Operand) := do
  let start ← get
  match start.limitRemaining % 0x100000000 with
  | 0 => return [⟨.listed kind, .number32 (← word)⟩]
  | 1 => return [⟨.listed kind, .number32 (← word)⟩]
  | 2 =>
    let words ← read fun cursor => cursor.nextWords 2
    return [⟨.listed kind, .number64 (UInt64.ofNat (Endian.ofBytes (Word.serialize words)))⟩]
  | words => fail .literalWidthUnsupported start.offset kind (UInt32.ofNat words)

def sequence (decode : OperandKind → Attempt (List Operand)) :
    List OperandKind → Attempt (List Operand)
  | [] => return []
  | kind :: kinds => do
    let first ← decode kind
    let others ← sequence decode kinds
    return first ++ others

def enumerated (decode : OperandKind → Attempt (List Operand)) (kind : OperandKind)
    (values : UInt32 → List UInt32) : Attempt (List Operand) := do
  let start ← get
  let value ← word
  match kind.enumerantsOf (values value) with
  | .error unknown => fail .enumerantUnknown start.offset kind unknown
  | .ok enumerants =>
    let parameters ← sequence decode (enumerants.flatMap Enumerant.parameters)
    return ⟨.listed kind, .enumerated value⟩ :: parameters

def decodeWith (decode : OperandKind → Attempt (List Operand)) (kind : OperandKind) :
    Attempt (List Operand) := do
  let kind ← lookUp kind
  match kind.shape with
  | .id => return [⟨.listed kind, .id (← word)⟩]
  | .number => return [⟨.listed kind, .number32 (← word)⟩]
  | .contextNumber => contextNumber kind
  | .string => return [⟨.listed kind, .string (← read Cursor.nextString)⟩]
  | .bits _ => enumerated decode kind OperandKind.setBits
  | .choice _ => enumerated decode kind fun value => [value]
  | .pair first second => sequence decode [first, second]

def decodeNested : Nat → OperandKind → Attempt (List Operand)
  | 0 => decodeWith fun _ => return []
  | depth + 1 => decodeWith (decodeNested depth)

def decode (kind : OperandKind) : Attempt (List Operand) :=
  decodeNested kind.rank kind

end Attempt

namespace Decoded

/-- A decode that throws its fault, and whatever it had read with it. -/
def thrown (decoded : Decoded) : Except Thrown (List Operand × Cursor) :=
  match decoded.fault with
  | some fault => .error (.fault fault)
  | none => .ok (decoded.operands, decoded.cursor)

end Decoded

namespace Attempt

variable {α β : Type}

theorem bind_apply (first : Attempt α) (next : α → Attempt β) (cursor : Cursor) :
    (first >>= next) cursor =
      match first cursor with
      | .ok (result, behind) => next result behind
      | .error thrown => .error thrown := by
  change (first cursor >>= fun result => next result.1 result.2) = _
  cases first cursor <;> rfl

theorem lookUp_bind (kind : OperandKind) (next : OperandKind → Attempt β) :
    lookUp kind >>= next = next kind := by
  funext cursor
  rw [bind_apply, lookUp, OperandKind.tag_eq]
  rfl

/-- What is read as one operand. -/
theorem read_bind (reader : Cursor → Reading α) (kind : OperandKind) (value : α → OperandValue)
    (cursor : Cursor) :
    (do return [⟨.listed kind, value (← read reader)⟩] : Attempt (List Operand)) cursor =
      (Decoded.ofReading kind value (reader cursor)).thrown := by
  rw [bind_apply, read]
  rcases reader cursor with ⟨_ | _, behind⟩ <;> rfl

/-- A fault can always name its kind. -/
theorem fail_eq (code : FaultCode) (offset : Nat) (kind : OperandKind) (value : UInt32)
    (cursor : Cursor) :
    (fail code offset kind value : Attempt α) cursor =
      .error (.fault ⟨code, offset, some (.listed kind), value⟩) := by
  rw [fail, OperandKind.tag_eq]
  cases code <;> rfl

theorem get_bind (next : Cursor → Attempt β) (cursor : Cursor) :
    (get >>= next) cursor = next cursor cursor := rfl

theorem contextNumber_eq (kind : OperandKind) (cursor : Cursor) :
    contextNumber kind cursor = (kind.decodeContextNumber cursor).thrown := by
  unfold contextNumber OperandKind.decodeContextNumber
  rw [get_bind]
  match cursor.limitRemaining % 0x100000000 with
  | 0 => exact read_bind _ _ _ _
  | 1 => exact read_bind _ _ _ _
  | 2 =>
    refine (bind_apply _ _ _).trans ?_
    rw [read]
    rcases cursor.nextWords 2 with ⟨_ | _, behind⟩ <;> rfl
  | words + 3 => exact fail_eq _ _ _ _ _

/-- What the decoder of single kinds does, it does of several kinds in order. -/
theorem sequence_eq {decode : OperandKind → Attempt (List Operand)}
    {plain : OperandKind → Cursor → Decoded}
    (agree : ∀ kind cursor, decode kind cursor = (plain kind cursor).thrown)
    (kinds : List OperandKind) (cursor : Cursor) :
    sequence decode kinds cursor = (Decoded.sequence plain kinds cursor).thrown := by
  induction kinds generalizing cursor with
  | nil => rfl
  | cons kind kinds inductionHypothesis =>
    unfold sequence Decoded.sequence
    rw [bind_apply, agree]
    rcases plain kind cursor with ⟨operands, behind, _ | fault⟩
    · dsimp only [Decoded.thrown, Decoded.andThen]
      rw [bind_apply, inductionHypothesis]
      rcases Decoded.sequence plain kinds behind with ⟨others, last, _ | fault⟩ <;> rfl
    · rfl

theorem enumerated_eq {decode : OperandKind → Attempt (List Operand)}
    {plain : OperandKind → Cursor → Decoded}
    (agree : ∀ kind cursor, decode kind cursor = (plain kind cursor).thrown) (kind : OperandKind)
    (values : UInt32 → List UInt32) (cursor : Cursor) :
    enumerated decode kind values cursor = (kind.decodeEnumerated plain values cursor).thrown := by
  unfold enumerated OperandKind.decodeEnumerated
  rw [get_bind, bind_apply, word, read]
  rcases cursor.nextWord with ⟨fault | value, behind⟩
  · rfl
  · dsimp only
    cases kind.enumerantsOf (values value) with
    | error unknown => exact fail_eq _ _ _ _ _
    | ok enumerants =>
      dsimp only [Decoded.andThen]
      rw [bind_apply, sequence_eq agree]
      rcases Decoded.sequence plain _ behind with ⟨others, last, _ | fault⟩ <;> rfl

theorem decodeWith_eq {decode : OperandKind → Attempt (List Operand)}
    {plain : OperandKind → Cursor → Decoded}
    (agree : ∀ kind cursor, decode kind cursor = (plain kind cursor).thrown) (kind : OperandKind)
    (cursor : Cursor) :
    decodeWith decode kind cursor = (kind.decodeWith plain cursor).thrown := by
  unfold decodeWith OperandKind.decodeWith
  rw [lookUp_bind]
  cases kind.shape with
  | id => exact read_bind _ _ _ _
  | number => exact read_bind _ _ _ _
  | contextNumber => exact contextNumber_eq kind cursor
  | string => exact read_bind _ _ _ _
  | bits enumerants => exact enumerated_eq agree kind _ cursor
  | choice enumerants => exact enumerated_eq agree kind _ cursor
  | pair first second => exact sequence_eq agree _ cursor

theorem decodeNested_eq (depth : Nat) (kind : OperandKind) (cursor : Cursor) :
    decodeNested depth kind cursor = (OperandKind.decodeNested depth kind cursor).thrown := by
  induction depth generalizing kind cursor with
  | zero =>
    have nothing (other : OperandKind) (behind : Cursor) :
        (return [] : Attempt (List Operand)) behind = (Decoded.nothing behind).thrown := rfl
    exact decodeWith_eq nothing kind cursor
  | succ depth inductionHypothesis => exact decodeWith_eq inductionHypothesis kind cursor

/-- Whatever the bytes are, nothing but a fault of theirs is thrown. -/
theorem decode_eq (kind : OperandKind) (cursor : Cursor) :
    decode kind cursor = (kind.decode cursor).thrown :=
  decodeNested_eq kind.rank kind cursor

/-- The kinds that a kind refers to are looked up and decoded like any other. -/
theorem decode_eq_decodeWith (kind : OperandKind) : decode kind = decodeWith decode kind := by
  funext cursor
  rw [decode_eq, decodeWith_eq decode_eq, OperandKind.decode_eq_decodeWith]

end Attempt

end SpirvInspector
