import SpirvInspector.Decode.Operands

/-!
# Decoding into a list

Decoding written as a computation that appends each operand to a list as soon as it is read, and
that throws its faults. What it has appended by then stays in the list. A decode depends on the
cursor alone: the list that it appends to is never looked at, and comes first in the list that it
leaves.
-/

set_option autoImplicit false

namespace SpirvInspector

/-- A list that operands are appended to, and the cursor that they are read from. -/
structure Filling where
  operands : List Operand
  cursor : Cursor
deriving DecidableEq, Repr

/-- A computation on a filling. Where it throws, the filling stays as it then is. -/
abbrev Append (α : Type) := ExceptT Fault (StateM Filling) α

namespace Append

variable {α β : Type}

def read (reader : Cursor → Reading α) : Append α := fun filling =>
  match reader filling.cursor with
  | (result, behind) => (result, { filling with cursor := behind })

def push (operand : Operand) : Append Unit :=
  modify fun filling => { filling with operands := filling.operands ++ [operand] }

def contextNumber (kind : OperandKind) : Append Unit := do
  let cursor := (← get).cursor
  match cursor.limitRemaining % 0x100000000 with
  | 0 => push ⟨.listed kind, .number32 (← read Cursor.nextWord)⟩
  | 1 => push ⟨.listed kind, .number32 (← read Cursor.nextWord)⟩
  | 2 =>
    let words ← read fun cursor => cursor.nextWords 2
    push ⟨.listed kind, .number64 (UInt64.ofNat (Endian.ofBytes (Word.serialize words)))⟩
  | words => throw (.literalWidthUnsupported cursor.offset kind (UInt32.ofNat words))

def each (decode : OperandKind → Append Unit) : List OperandKind → Append Unit
  | [] => return
  | kind :: kinds => do
    decode kind
    each decode kinds

def enumerated (decode : OperandKind → Append Unit) (kind : OperandKind)
    (values : UInt32 → List UInt32) : Append Unit := do
  let offset := (← get).cursor.offset
  let word ← read Cursor.nextWord
  match kind.enumerantsOf (values word) with
  | .error unknown => throw (.enumerantUnknown offset kind unknown)
  | .ok enumerants =>
    push ⟨.listed kind, .enumerated word⟩
    each decode (enumerants.flatMap Enumerant.parameters)

def decodeWith (decode : OperandKind → Append Unit) (kind : OperandKind) : Append Unit :=
  match kind.shape with
  | .id => do push ⟨.listed kind, .id (← read Cursor.nextWord)⟩
  | .number => do push ⟨.listed kind, .number32 (← read Cursor.nextWord)⟩
  | .contextNumber => contextNumber kind
  | .string => do push ⟨.listed kind, .string (← read Cursor.nextString)⟩
  | .bits _ => enumerated decode kind OperandKind.setBits
  | .choice _ => enumerated decode kind fun value => [value]
  | .pair first second => each decode [first, second]

def decodeNested : Nat → OperandKind → Append Unit
  | 0 => decodeWith fun _ => return
  | depth + 1 => decodeWith (decodeNested depth)

end Append

def OperandKind.decodeInto (kind : OperandKind) : Append Unit :=
  Append.decodeNested kind.rank kind

namespace Decoded

/-- What a decode is to a list that it appends to. -/
def appendTo (decoded : Decoded) (held : List Operand) : Except Fault Unit × Filling :=
  (match decoded.fault with
    | some fault => .error fault
    | none => .ok (),
    ⟨held ++ decoded.operands, decoded.cursor⟩)

end Decoded

namespace Append

variable {α β : Type}

theorem bind_apply (first : Append α) (next : α → Append β) (filling : Filling) :
    (first >>= next) filling =
      match first filling with
      | (.ok result, behind) => next result behind
      | (.error fault, behind) => (.error fault, behind) := by
  change (match first filling with
    | (result, behind) => ExceptT.bindCont next result behind) = _
  rcases first filling with ⟨_ | _, behind⟩ <;> rfl

@[simp] theorem pure_apply (result : α) (filling : Filling) :
    (pure result : Append α) filling = (.ok result, filling) := rfl

@[simp] theorem throw_apply (fault : Fault) (filling : Filling) :
    (throw fault : Append α) filling = (.error fault, filling) := rfl

theorem get_bind (next : Filling → Append β) (filling : Filling) :
    (get >>= next) filling = next filling filling := rfl

/-- What is read as one operand. -/
theorem read_push (reader : Cursor → Reading α) (kind : OperandKind) (value : α → OperandValue)
    (filling : Filling) :
    (do push ⟨.listed kind, value (← read reader)⟩ : Append Unit) filling =
      (Decoded.ofReading kind value (reader filling.cursor)).appendTo filling.operands := by
  rw [bind_apply, read]
  rcases reader filling.cursor with ⟨_ | _, behind⟩
  · simp [Decoded.ofReading, Decoded.appendTo]
  · rfl

theorem contextNumber_eq (kind : OperandKind) (filling : Filling) :
    contextNumber kind filling =
      (kind.decodeContextNumber filling.cursor).appendTo filling.operands := by
  unfold contextNumber OperandKind.decodeContextNumber
  rw [get_bind]
  match filling.cursor.limitRemaining % 0x100000000 with
  | 0 => exact read_push _ _ _ _
  | 1 => exact read_push _ _ _ _
  | 2 =>
    refine (bind_apply _ _ _).trans ?_
    rw [read]
    rcases filling.cursor.nextWords 2 with ⟨_ | _, behind⟩
    · simp [Decoded.appendTo]
    · rfl
  | words + 3 => simp [Decoded.appendTo]

/-- What the decoder of single kinds appends, it appends of several kinds in order. -/
theorem each_eq {decode : OperandKind → Append Unit} {plain : OperandKind → Cursor → Decoded}
    (agree : ∀ kind filling,
      decode kind filling = (plain kind filling.cursor).appendTo filling.operands)
    (kinds : List OperandKind) (filling : Filling) :
    each decode kinds filling =
      (Decoded.sequence plain kinds filling.cursor).appendTo filling.operands := by
  induction kinds generalizing filling with
  | nil => simp [each, Decoded.sequence, Decoded.nothing, Decoded.appendTo]
  | cons kind kinds inductionHypothesis =>
    unfold each Decoded.sequence
    rw [bind_apply, agree]
    rcases plain kind filling.cursor with ⟨operands, behind, _ | fault⟩
    · dsimp only [Decoded.appendTo, Decoded.andThen]
      rw [inductionHypothesis]
      simp [Decoded.appendTo]
    · rfl

theorem enumerated_eq {decode : OperandKind → Append Unit} {plain : OperandKind → Cursor → Decoded}
    (agree : ∀ kind filling,
      decode kind filling = (plain kind filling.cursor).appendTo filling.operands)
    (kind : OperandKind) (values : UInt32 → List UInt32) (filling : Filling) :
    enumerated decode kind values filling =
      (kind.decodeEnumerated plain values filling.cursor).appendTo filling.operands := by
  unfold enumerated OperandKind.decodeEnumerated
  rw [get_bind, bind_apply, read]
  rcases filling.cursor.nextWord with ⟨fault | word, behind⟩
  · simp [Decoded.appendTo]
  · dsimp only
    cases kind.enumerantsOf (values word) with
    | error unknown => simp [Decoded.appendTo]
    | ok enumerants =>
      refine (bind_apply _ _ _).trans ((each_eq agree _ _).trans ?_)
      simp [Decoded.appendTo, Decoded.andThen]

theorem decodeWith_eq {decode : OperandKind → Append Unit} {plain : OperandKind → Cursor → Decoded}
    (agree : ∀ kind filling,
      decode kind filling = (plain kind filling.cursor).appendTo filling.operands)
    (kind : OperandKind) (filling : Filling) :
    decodeWith decode kind filling =
      (kind.decodeWith plain filling.cursor).appendTo filling.operands := by
  unfold decodeWith OperandKind.decodeWith
  cases kind.shape with
  | id => exact read_push _ _ _ _
  | number => exact read_push _ _ _ _
  | contextNumber => exact contextNumber_eq kind filling
  | string => exact read_push _ _ _ _
  | bits enumerants => exact enumerated_eq agree kind _ filling
  | choice enumerants => exact enumerated_eq agree kind _ filling
  | pair first second => exact each_eq agree _ filling

theorem decodeNested_eq (depth : Nat) (kind : OperandKind) (filling : Filling) :
    decodeNested depth kind filling =
      (OperandKind.decodeNested depth kind filling.cursor).appendTo filling.operands := by
  induction depth generalizing kind filling with
  | zero =>
    apply decodeWith_eq
    intro _ behind
    simp [Decoded.nothing, Decoded.appendTo]
  | succ depth inductionHypothesis => exact decodeWith_eq inductionHypothesis kind filling

end Append

namespace OperandKind

/-- Whatever is in the list, the same operands are appended to it, and the same fault is thrown. -/
theorem decodeInto_eq (kind : OperandKind) (filling : Filling) :
    kind.decodeInto filling = (kind.decode filling.cursor).appendTo filling.operands :=
  Append.decodeNested_eq kind.rank kind filling

end OperandKind

end SpirvInspector
