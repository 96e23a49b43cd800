import Mathlib.Data.List.Induction
import SpirvInspector.Text.Binary64
import SpirvInspector.Text.Table

/-!
# Tables filled cell by cell

A table is filled by defining columns and adding cells to them in any order, each column keeping the
length of its longest cell so far. It is printed row by row to a stream that pads each text to a
width that is set for it. This prints the rendered table, however the stream was formatted before.
-/

set_option autoImplicit false

namespace SpirvInspector.Text

/-- A column as it is filled, with the length of its longest cell so far. -/
structure MeasuredColumn where
  column : Column
  width : Nat

namespace MeasuredColumn

def add (measured : MeasuredColumn) (cell : Bytes) : MeasuredColumn where
  column := { measured.column with cells := measured.column.cells ++ [cell] }
  width := max measured.width cell.length

/-- The label of a column counts as its first cell. -/
def define (label : Bytes) (numeric : Bool) : MeasuredColumn where
  column := ⟨label, numeric, []⟩
  width := max 0 label.length

def Exact (measured : MeasuredColumn) : Prop :=
  measured.width = measured.column.width

theorem exact_define (label : Bytes) (numeric : Bool) : (define label numeric).Exact := rfl

theorem Exact.add {measured : MeasuredColumn} (exact : measured.Exact) (cell : Bytes) :
    (measured.add cell).Exact := by
  change max measured.width cell.length = _
  rw [show measured.width = measured.column.width from exact]
  simp [MeasuredColumn.add, Column.width, Column.rows]

end MeasuredColumn

/-- What fills a table. A cell is added to the column at an index, as a text or as a double with a
number of decimal places. -/
inductive Filling
  | define (label : Bytes) (numeric : Bool)
  | add (index : Nat) (cell : Bytes)
  | addNumber (index : Nat) (places : Int) (bits : UInt64)

abbrev Sheet := List MeasuredColumn

namespace Sheet

def fill (sheet : Sheet) : Filling → Sheet
  | .define label numeric => sheet ++ [.define label numeric]
  | .add index cell => sheet.modify index (·.add cell)
  | .addNumber index places bits => sheet.modify index (·.add (fixed places bits))

def ofFillings (fillings : List Filling) : Sheet :=
  fillings.foldl fill []

def table (sheet : Sheet) : Table :=
  sheet.map MeasuredColumn.column

theorem exact_modify {sheet : Sheet} (exact : ∀ measured ∈ sheet, measured.Exact) (index : Nat)
    (cell : Bytes) : ∀ measured ∈ sheet.modify index (·.add cell), measured.Exact := by
  intro measured isIn
  obtain ⟨place, isPlaced⟩ := List.mem_iff_getElem?.mp isIn
  rw [List.getElem?_modify] at isPlaced
  obtain ⟨before, wasPlaced, rfl⟩ := Option.map_eq_some_iff.mp isPlaced
  have wasExact := exact before (List.mem_of_getElem? wasPlaced)
  split
  · exact wasExact.add cell
  · exact wasExact

theorem exact_fill {sheet : Sheet} (exact : ∀ measured ∈ sheet, measured.Exact)
    (filling : Filling) : ∀ measured ∈ sheet.fill filling, measured.Exact := by
  cases filling with
  | define label numeric =>
    intro measured isIn
    rcases List.mem_append.mp isIn with isEarlier | isNew
    · exact exact measured isEarlier
    · rw [List.mem_singleton.mp isNew]
      exact MeasuredColumn.exact_define label numeric
  | add index cell => exact exact_modify exact index cell
  | addNumber index places bits => exact exact_modify exact index (fixed places bits)

theorem exact_ofFillings (fillings : List Filling) :
    ∀ measured ∈ ofFillings fillings, measured.Exact :=
  List.foldlRecOn fillings fill
    (motive := fun sheet : Sheet => ∀ measured ∈ sheet, measured.Exact) nofun
    fun _ exact filling _ => exact_fill exact filling

theorem widths_ofFillings (fillings : List Filling) :
    (ofFillings fillings).map MeasuredColumn.width =
      (ofFillings fillings).table.map Column.width := by
  rw [table, List.map_map]
  exact List.map_congr_left (exact_ofFillings fillings)

/-- The cells of one more column are added behind its definition. -/
theorem table_foldl_add (sheet : Sheet) (measured : MeasuredColumn) (cells : List Bytes) :
    table ((cells.map (Filling.add sheet.length)).foldl fill (sheet ++ [measured])) =
      sheet.table ++ [{ measured.column with cells := measured.column.cells ++ cells }] := by
  induction cells generalizing measured with
  | nil => simp [table]
  | cons cell cells inductionHypothesis =>
    have added : fill (sheet ++ [measured]) (.add sheet.length cell) =
        sheet ++ [measured.add cell] := by
      simp [fill, List.modify_eq_take_cons_drop]
    rw [List.map_cons, List.foldl_cons, added, inductionHypothesis]
    simp [MeasuredColumn.add]

/-- Every table can be filled. -/
theorem exists_fillings (columns : Table) : ∃ fillings, (ofFillings fillings).table = columns := by
  induction columns using List.reverseRecOn with
  | nil => exact ⟨[], rfl⟩
  | append_singleton columns column inductionHypothesis =>
    obtain ⟨fillings, rfl⟩ := inductionHypothesis
    refine ⟨fillings ++ .define column.label column.numeric ::
      column.cells.map (.add (ofFillings fillings).length), ?_⟩
    rw [ofFillings, List.foldl_append, List.foldl_cons]
    exact table_foldl_add (ofFillings fillings) (.define column.label column.numeric) column.cells

end Sheet

/-- An output stream with its formatting. The width counts for the next text alone; fill and
alignment stay until they are set again. -/
structure Output where
  written : Bytes
  fill : UInt8
  right : Bool
  width : Nat

namespace Output

def put (output : Output) (text : Bytes) : Output where
  written := output.written ++
    if output.right then padLeft output.width output.fill text
    else padRight output.width output.fill text
  fill := output.fill
  right := output.right
  width := 0

/-- A stream that pads with blanks, but not the next text. -/
structure Plain (output : Output) : Prop where
  fill : output.fill = Bytes.space
  width : output.width = 0

variable {output : Output}

theorem written_put (plain : output.Plain) (text : Bytes) :
    (output.put text).written = output.written ++ text := by
  simp [put, plain.width, padLeft, padRight]

theorem plain_put (fill : output.fill = Bytes.space) (text : Bytes) : (output.put text).Plain :=
  ⟨fill, rfl⟩

end Output

/-- A first part, and a separator in front of each part behind it. -/
theorem intercalate_cons (separator first : Bytes) (others : List Bytes) :
    separator.intercalate (first :: others) = first ++ others.flatMap (separator ++ ·) := by
  induction others generalizing first with
  | nil => simp [List.intercalate]
  | cons second others inductionHypothesis =>
    rw [List.intercalate_cons_cons, inductionHypothesis]
    simp

namespace Sheet

def printCell (measured : MeasuredColumn) (row : Nat) (output : Output) : Output :=
  { output with right := measured.column.numeric, width := measured.width }.put
    (measured.column.rows.getD row [])

def printRow (sheet : Sheet) (delimiter : Bytes) (row : Nat) (output : Output) : Output :=
  sheet.zipIdx.foldl
    (fun output (measured, index) =>
      printCell measured row (if 0 < index then output.put delimiter else output))
    output

def height (sheet : Sheet) : Nat :=
  sheet.foldl (fun rows measured => max rows measured.column.rows.length) 0

def print (sheet : Sheet) (delimiter : Bytes) (output : Output) : Output :=
  (List.range sheet.height).foldl
    (fun output row => (sheet.printRow delimiter row output).put [Bytes.newline])
    { output with fill := Bytes.space }

theorem height_eq (sheet : Sheet) : sheet.height = sheet.table.height := by
  rw [height, Table.height, table, List.map_map, List.foldl_map]
  rfl

variable {sheet : Sheet} {output : Output}

theorem written_printCell {measured : MeasuredColumn} (exact : measured.Exact) (row : Nat)
    (fill : output.fill = Bytes.space) :
    (printCell measured row output).written =
      output.written ++ measured.column.cell row := by
  simp [printCell, Output.put, fill, show measured.width = measured.column.width from exact,
    Column.cell, Column.align]

theorem plain_printCell (measured : MeasuredColumn) (row : Nat)
    (fill : output.fill = Bytes.space) : (printCell measured row output).Plain :=
  ⟨fill, rfl⟩

/-- The cells behind the first one, each with a delimiter in front of it. -/
theorem printRow_behind (exact : ∀ measured ∈ sheet, measured.Exact) (delimiter : Bytes) (row : Nat)
    (plain : output.Plain) {index : Nat} (behind : 0 < index) :
    let printed := (sheet.zipIdx index).foldl
      (fun output (measured, index) =>
        printCell measured row (if 0 < index then output.put delimiter else output))
      output
    printed.written =
        output.written ++
          (sheet.table.map (Column.cell · row)).flatMap (delimiter ++ ·) ∧
      printed.Plain := by
  induction sheet generalizing output index with
  | nil => simp [table, plain]
  | cons measured sheet inductionHypothesis =>
    obtain ⟨exactFirst, exactOthers⟩ := List.forall_mem_cons.mp exact
    have delimited := Output.plain_put plain.fill delimiter
    obtain ⟨written, ends⟩ := inductionHypothesis exactOthers
      (plain_printCell measured row delimited.fill) (Nat.succ_pos index)
    simp only [List.zipIdx_cons, List.foldl_cons, if_pos behind]
    refine ⟨?_, ends⟩
    rw [written, written_printCell exactFirst row delimited.fill, Output.written_put plain]
    simp [table]

theorem printRow_line (exact : ∀ measured ∈ sheet, measured.Exact) (filled : sheet ≠ [])
    (delimiter : Bytes) (row : Nat) (fill : output.fill = Bytes.space) :
    (sheet.printRow delimiter row output).written =
        output.written ++ sheet.table.line delimiter row ∧
      (sheet.printRow delimiter row output).Plain := by
  obtain ⟨measured, others, rfl⟩ := List.exists_cons_of_ne_nil filled
  obtain ⟨exactFirst, exactOthers⟩ := List.forall_mem_cons.mp exact
  obtain ⟨written, ends⟩ := printRow_behind exactOthers delimiter row
    (plain_printCell measured row fill) Nat.one_pos
  simp only [printRow, List.zipIdx_cons, List.foldl_cons, Nat.lt_irrefl, if_false, Nat.zero_add]
  refine ⟨?_, ends⟩
  rw [written, written_printCell exactFirst row fill, Table.line]
  simp only [table, List.map_cons, intercalate_cons, List.append_assoc]

theorem written_printRows (exact : ∀ measured ∈ sheet, measured.Exact) (filled : sheet ≠ [])
    (delimiter : Bytes) (rows : List Nat) (fill : output.fill = Bytes.space) :
    (rows.foldl
      (fun output row => (sheet.printRow delimiter row output).put [Bytes.newline])
      output).written =
    output.written ++
      rows.flatMap fun row => sheet.table.line delimiter row ++ [Bytes.newline] := by
  induction rows generalizing output with
  | nil => simp
  | cons row rows inductionHypothesis =>
    obtain ⟨written, plain⟩ := printRow_line exact filled delimiter row fill
    rw [List.foldl_cons, inductionHypothesis (Output.plain_put plain.fill _).fill,
      Output.written_put plain, written]
    simp

/-- A table that was filled cell by cell is printed as it is rendered, behind what the stream held
and whatever its formatting was. -/
theorem written_print (exact : ∀ measured ∈ sheet, measured.Exact) (delimiter : Bytes)
    (output : Output) :
    (sheet.print delimiter output).written = output.written ++ sheet.table.render delimiter := by
  by_cases empty : sheet = []
  · simp [empty, print, height, Table.render, Table.height, table]
  rw [print, written_printRows exact empty delimiter _ rfl, height_eq, Table.render]

end Sheet

end SpirvInspector.Text
