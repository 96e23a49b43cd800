import Mathlib.Data.List.Forall2
import SpirvInspector.Module.Header
import SpirvInspector.Module.Instruction
import SpirvInspector.Proofs.Stream.Reading

/-!
# The written form of a module

A module is written as cells of one byte each. Nearly every cell holds data; the bytes behind the
zero byte of a string only fill up its last word. Filler is written as zero, but may be anything
where a module is read.
-/

set_option autoImplicit false

namespace SpirvInspector

inductive Cell
  | data (byte : UInt8)
  | filler
deriving DecidableEq, Repr

namespace Cell

def byte : Cell → UInt8
  | data byte => byte
  | filler => 0

/-- The bytes that are read as a cell. -/
def Holds : Cell → UInt8 → Prop
  | data byte, other => other = byte
  | filler, _ => True

end Cell

/-- Bytes that are read as the given cells. -/
def Spells (cells : List Cell) (bytes : Bytes) : Prop :=
  List.Forall₂ Cell.Holds cells bytes

namespace Spells

theorem length_eq {cells : List Cell} {bytes : Bytes} (spelled : Spells cells bytes) :
    bytes.length = cells.length :=
  (List.Forall₂.length_eq spelled).symm

theorem append {first second : List Cell} {front back : Bytes} (spelledFirst : Spells first front)
    (spelledSecond : Spells second back) : Spells (first ++ second) (front ++ back) :=
  List.rel_append spelledFirst spelledSecond

theorem split {first second : List Cell} {bytes : Bytes}
    (spelled : Spells (first ++ second) bytes) :
    ∃ front back, bytes = front ++ back ∧ Spells first front ∧ Spells second back := by
  refine ⟨bytes.take first.length, bytes.drop first.length,
    (List.take_append_drop _ _).symm, ?_, ?_⟩
  · simpa [Spells] using List.forall₂_take first.length spelled
  · simpa [Spells] using List.forall₂_drop first.length spelled

theorem data_iff (expected bytes : Bytes) :
    Spells (expected.map .data) bytes ↔ bytes = expected := by
  rw [Spells, List.forall₂_map_left_iff]
  change List.Forall₂ (fun byte other => other = byte) expected bytes ↔ bytes = expected
  constructor
  · intro same
    induction same with
    | nil => rfl
    | cons equal _ inductionHypothesis => rw [equal, inductionHypothesis]
  · rintro rfl
    exact List.forall₂_same.mpr fun _ _ => rfl

theorem filler_iff (count : Nat) (bytes : Bytes) :
    Spells (List.replicate count .filler) bytes ↔ bytes.length = count := by
  induction count generalizing bytes with
  | zero => simp [Spells]
  | succ count inductionHypothesis =>
    cases bytes with
    | nil => simp [Spells, List.replicate_succ]
    | cons byte later =>
      have holds : Cell.Holds .filler byte := trivial
      simpa [Spells, List.replicate_succ, holds] using inductionHypothesis later

theorem written (cells : List Cell) : Spells cells (cells.map Cell.byte) := by
  rw [Spells, List.forall₂_map_right_iff, List.forall₂_same]
  intro cell _
  cases cell with
  | data byte => rfl
  | filler => trivial

/-- Away from filler, bytes that are read as cells are those that are written for them. -/
theorem getElem?_eq {cells : List Cell} {bytes : Bytes} (spelled : Spells cells bytes) {i : Nat}
    (isData : cells[i]? ≠ some .filler) : bytes[i]? = (cells.map Cell.byte)[i]? := by
  induction spelled generalizing i with
  | nil => rfl
  | @cons cell byte _ _ holds _ inductionHypothesis =>
    cases i with
    | zero =>
      cases cell with
      | data expected =>
        have same : byte = expected := holds
        simp [same, Cell.byte]
      | filler => simp at isData
    | succ i => simpa using inductionHypothesis (by simpa using isData)

end Spells

namespace Word

def cells (word : Word) : List Cell :=
  word.bytes.map .data

@[simp] theorem length_cells (word : Word) : word.cells.length = 4 := by
  simp [cells]

@[simp] theorem map_byte_cells (word : Word) : word.cells.map Cell.byte = word.bytes := by
  have undone : Cell.byte ∘ Cell.data = id := rfl
  simp [cells, undone]

end Word

namespace Operand

/-- A number of two words has the low-order word first. -/
def cells (operand : Operand) : List Cell :=
  match operand.value with
  | .id id => id.cells
  | .number32 value => Word.cells value
  | .number64 value => (Endian.toBytes 8 value.toNat).map .data
  | .string text => (text ++ [0]).map .data ++ List.replicate (3 - text.length % 4) .filler
  | .enumerated value => Word.cells value

def size (operand : Operand) : Nat :=
  match operand.value with
  | .number64 _ => 2
  | .string text => text.stringWords
  | _ => 1

def listCells (operands : List Operand) : List Cell :=
  operands.flatMap cells

def listSize : List Operand → Nat
  | [] => 0
  | operand :: later => operand.size + listSize later

@[simp] theorem length_cells (operand : Operand) : operand.cells.length = 4 * operand.size := by
  cases operand with
  | mk kind value =>
    cases value with
    | string text =>
      simp only [cells, size, Bytes.stringWords, List.length_append, List.length_map,
        List.length_replicate, List.length_singleton]
      omega
    | _ => simp [cells, size]

theorem size_eq_one {operand : Operand} {word : Word} (single : operand.cells = word.cells) :
    operand.size = 1 := by
  have length := congrArg List.length single
  rw [length_cells, Word.length_cells] at length
  omega

@[simp] theorem listSize_nil : listSize [] = 0 := rfl

@[simp] theorem listCells_singleton (operand : Operand) : listCells [operand] = operand.cells := by
  simp [listCells]

@[simp] theorem listSize_singleton (operand : Operand) : listSize [operand] = operand.size := by
  simp [listSize]

@[simp] theorem listCells_append (first second : List Operand) :
    listCells (first ++ second) = listCells first ++ listCells second := by
  simp [listCells]

@[simp] theorem listSize_append (first second : List Operand) :
    listSize (first ++ second) = listSize first + listSize second := by
  induction first with
  | nil => simp
  | cons operand later inductionHypothesis =>
    rw [List.cons_append, listSize, listSize, inductionHypothesis, Nat.add_assoc]

@[simp] theorem length_listCells (operands : List Operand) :
    (listCells operands).length = 4 * listSize operands := by
  induction operands with
  | nil => rfl
  | cons operand later inductionHypothesis =>
    have split : listCells (operand :: later) = operand.cells ++ listCells later := rfl
    have sizes : listSize (operand :: later) = operand.size + listSize later := rfl
    rw [split, sizes, List.length_append, length_cells, inductionHypothesis]
    omega

end Operand

namespace Instruction

/-- Everything behind the first word in the order of the stream: the result type, the result id, and
the operands. -/
def content (inst : Instruction) : List Operand :=
  inst.resultType.toList.map (fun type => ⟨.listed .idResultType, .id type⟩) ++
    inst.resultId.toList.map (fun id => ⟨.listed .idResult, .id id⟩) ++ inst.operands

/-- The words of an instruction, the first one included. -/
def wordCount (inst : Instruction) : Nat :=
  1 + Operand.listSize inst.content

/-- The word count in the upper half of the first word, the opcode in the lower. -/
def firstWord (inst : Instruction) : Word :=
  UInt32.ofNat inst.wordCount <<< 16 ||| inst.opcode.toUInt32

def cells (inst : Instruction) : List Cell :=
  inst.firstWord.cells ++ Operand.listCells inst.content

@[simp] theorem length_cells (inst : Instruction) : inst.cells.length = 4 * inst.wordCount := by
  rw [cells, List.length_append, Word.length_cells, Operand.length_listCells, wordCount]
  omega

end Instruction

namespace Header

def words (header : Header) : List Word :=
  [header.magic, header.version, header.generator, header.bound, header.reserved]

def cells (header : Header) : List Cell :=
  header.words.flatMap Word.cells

@[simp] theorem map_byte_cells (header : Header) :
    header.cells.map Cell.byte = Word.serialize header.words := by
  simp [cells, Word.serialize, List.map_flatMap]

@[simp] theorem length_serialize_words (header : Header) :
    (Word.serialize header.words).length = byteCount := by
  simp [Word.serialize, words, byteCount, wordCount]

end Header

def moduleCells (header : Header) (insts : List Instruction) : List Cell :=
  header.cells ++ insts.flatMap Instruction.cells

def moduleBytes (header : Header) (insts : List Instruction) : Bytes :=
  (moduleCells header insts).map Cell.byte

end SpirvInspector
