import SpirvInspector.Module.Instruction
import SpirvInspector.Stream.Cursor

/-!
# Operand decoder

Decodes one logical operand into the concrete operands it stands for: a pair yields the operands of
its members, and an enumerated value yields itself and then the parameters it requires. A decode
that fails keeps what it read: the operands completed before the fault and the cursor as it then
was.
-/

set_option autoImplicit false

namespace SpirvInspector

/-- What a decode has read: completed operands, the cursor after them, and the fault that ended it
early, if one did. -/
structure Decoded where
  operands : List Operand
  cursor : Cursor
  fault : Option Fault

namespace Decoded

def nothing (cursor : Cursor) : Decoded :=
  ⟨[], cursor, none⟩

/-- One read whose result makes one operand. -/
def ofReading {α : Type} (kind : OperandKind) (value : α → OperandValue) : Reading α → Decoded
  | (.ok result, cursor) => ⟨[⟨.listed kind, value result⟩], cursor, none⟩
  | (.error fault, cursor) => ⟨[], cursor, some fault⟩

/-- Goes on behind a decode, unless it failed. -/
def andThen (decoded : Decoded) (next : Cursor → Decoded) : Decoded :=
  match decoded.fault with
  | some _ => decoded
  | none =>
    let following := next decoded.cursor
    { following with operands := decoded.operands ++ following.operands }

/-- Decodes each of several kinds in order. -/
def sequence (decode : OperandKind → Cursor → Decoded) : List OperandKind → Cursor → Decoded
  | [], cursor => nothing cursor
  | kind :: kinds, cursor => (decode kind cursor).andThen (sequence decode kinds)

end Decoded

namespace OperandKind

/-- The single bits of a value, lowest first. -/
def setBits (value : UInt32) : List UInt32 :=
  ((List.range 32).map fun position => (1 : UInt32) <<< position.toUInt32).filter
    fun bit => value &&& bit != 0

/-- The enumerants of a list of values, or the first value that has none. -/
def enumerantsOf (kind : OperandKind) : List UInt32 → Except UInt32 (List Enumerant)
  | [] => .ok []
  | value :: values =>
    match kind.enumerant? value with
    | none => .error value
    | some enumerant =>
      match kind.enumerantsOf values with
      | .ok enumerants => .ok (enumerant :: enumerants)
      | .error unknown => .error unknown

/-- A number as wide as what is left of the window, the low-order word first. An empty window is
left to the reader to report. The width is counted in 32 bits. -/
def decodeContextNumber (kind : OperandKind) (cursor : Cursor) : Decoded :=
  match cursor.limitRemaining % 0x100000000 with
  | 0 => .ofReading kind .number32 cursor.nextWord
  | 1 => .ofReading kind .number32 cursor.nextWord
  | 2 =>
    match cursor.nextWords 2 with
    | (.ok words, behind) =>
      ⟨[⟨.listed kind, .number64 (UInt64.ofNat (Endian.ofBytes (Word.serialize words)))⟩], behind,
        none⟩
    | (.error fault, behind) => ⟨[], behind, some fault⟩
  | words =>
    ⟨[], cursor, some (.literalWidthUnsupported cursor.offset kind (UInt32.ofNat words))⟩

/-- A word of enumerants, all of them checked before any of their parameters is decoded. `values`
gives the enumerant values that the word stands for. -/
def decodeEnumerated (decode : OperandKind → Cursor → Decoded) (kind : OperandKind)
    (values : UInt32 → List UInt32) (cursor : Cursor) : Decoded :=
  match cursor.nextWord with
  | (.error fault, behind) => ⟨[], behind, some fault⟩
  | (.ok word, behind) =>
    match kind.enumerantsOf (values word) with
    | .error unknown => ⟨[], behind, some (.enumerantUnknown cursor.offset kind unknown)⟩
    | .ok enumerants =>
      Decoded.andThen ⟨[⟨.listed kind, .enumerated word⟩], behind, none⟩
        (.sequence decode (enumerants.flatMap Enumerant.parameters))

/-- Decodes a kind, with `decode` for the kinds it refers to. -/
def decodeWith (decode : OperandKind → Cursor → Decoded) (kind : OperandKind) (cursor : Cursor) :
    Decoded :=
  match kind.shape with
  | .id => .ofReading kind .id cursor.nextWord
  | .number => .ofReading kind .number32 cursor.nextWord
  | .contextNumber => kind.decodeContextNumber cursor
  | .string => .ofReading kind .string cursor.nextString
  | .bits _ => kind.decodeEnumerated decode setBits cursor
  | .choice _ => kind.decodeEnumerated decode (fun value => [value]) cursor
  | .pair first second => .sequence decode [first, second] cursor

/-- Decodes a kind whose references nest at most `depth` deep. -/
def decodeNested : Nat → OperandKind → Cursor → Decoded
  | 0 => decodeWith fun _ cursor => .nothing cursor
  | depth + 1 => decodeWith (decodeNested depth)

def decode (kind : OperandKind) (cursor : Cursor) : Decoded :=
  decodeNested kind.rank kind cursor

end OperandKind

namespace Decoded

theorem sequence_congr {f g : OperandKind → Cursor → Decoded} {kinds : List OperandKind}
    (agree : ∀ kind ∈ kinds, f kind = g kind) : sequence f kinds = sequence g kinds := by
  induction kinds with
  | nil => rfl
  | cons kind kinds inductionHypothesis =>
    have first : f kind = g kind := agree kind List.mem_cons_self
    have others := inductionHypothesis fun other isOther =>
      agree other (List.mem_cons_of_mem _ isOther)
    funext cursor
    rw [sequence, sequence, first, others]

end Decoded

namespace OperandKind

theorem mem_enumerants_of_enumerantsOf {kind : OperandKind} {values : List UInt32}
    {enumerants : List Enumerant} (found : kind.enumerantsOf values = .ok enumerants)
    {enumerant : Enumerant} (isFound : enumerant ∈ enumerants) : enumerant ∈ kind.enumerants := by
  induction values generalizing enumerants with
  | nil =>
    cases found
    cases isFound
  | cons value values inductionHypothesis =>
    rw [enumerantsOf] at found
    split at found
    · cases found
    · next first known =>
      split at found
      · next others rest =>
        cases found
        cases isFound with
        | head => exact List.mem_of_find?_eq_some known
        | tail _ later => exact inductionHypothesis rest later
      · cases found

/-- Decoding looks at the decoder of other kinds only for the kinds of lower rank. -/
theorem decodeWith_congr {f g : OperandKind → Cursor → Decoded} {kind : OperandKind}
    (agree : ∀ other : OperandKind, other.rank < kind.rank → f other = g other) :
    decodeWith f kind = decodeWith g kind := by
  have enumerated (values : UInt32 → List UInt32) :
      kind.decodeEnumerated f values = kind.decodeEnumerated g values := by
    funext cursor
    rw [decodeEnumerated, decodeEnumerated]
    split
    · rfl
    · split
      · rfl
      · next enumerants found =>
        have same : Decoded.sequence f (enumerants.flatMap Enumerant.parameters) =
            Decoded.sequence g (enumerants.flatMap Enumerant.parameters) := by
          apply Decoded.sequence_congr
          intro parameter isParameter
          obtain ⟨enumerant, isEnumerant, isIn⟩ := List.mem_flatMap.mp isParameter
          exact agree parameter (rank_lt_of_mem_parameters
            (mem_enumerants_of_enumerantsOf found isEnumerant) isIn)
        rw [same]
  funext cursor
  rw [decodeWith, decodeWith]
  split
  case h_5 => rw [enumerated]
  case h_6 => rw [enumerated]
  case h_7 first second shape =>
    have same : Decoded.sequence f [first, second] = Decoded.sequence g [first, second] := by
      apply Decoded.sequence_congr
      intro member isMember
      exact agree member (rank_lt_of_mem_members (by rwa [shape]))
    rw [same]
  all_goals rfl

/-- Depth beyond the rank of a kind makes no difference. -/
theorem decodeNested_eq_decodeNested {kind : OperandKind} {depth other : Nat}
    (deep : kind.rank ≤ depth) (otherDeep : kind.rank ≤ other) :
    decodeNested depth kind = decodeNested other kind := by
  induction depth generalizing kind other with
  | zero =>
    cases other with
    | zero => rfl
    | succ other =>
      apply decodeWith_congr
      intro reference lower
      omega
  | succ depth inductionHypothesis =>
    cases other with
    | zero =>
      apply decodeWith_congr
      intro reference lower
      omega
    | succ other =>
      apply decodeWith_congr
      intro reference lower
      exact inductionHypothesis (by omega) (by omega)

/-- The recursion of the decoder: the kinds that a kind refers to are decoded like any other. -/
theorem decode_eq_decodeWith (kind : OperandKind) : decode kind = decodeWith decode kind := by
  funext cursor
  have unfolded : decodeNested (kind.rank + 1) kind = decodeWith decode kind := by
    apply decodeWith_congr
    intro reference lower
    exact decodeNested_eq_decodeNested (by omega) (Nat.le_refl _)
  rw [decode, ← unfolded, decodeNested_eq_decodeNested (Nat.le_refl _) (Nat.le_succ _)]

end OperandKind

end SpirvInspector
