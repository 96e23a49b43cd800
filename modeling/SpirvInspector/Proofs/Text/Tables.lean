import Mathlib.Algebra.BigOperators.Group.List.Basic
import Mathlib.Algebra.GroupWithZero.Nat
import Mathlib.Order.Bounds.Basic
import SpirvInspector.Proofs.Text.Sheets

/-!
# Tables are rectangular

A table is rendered in lines of one length, as many as its longest column has rows. Each column
takes the same place in all lines, as wide as its longest cell, and its cells stand in this place in
their order.
-/

set_option autoImplicit false

namespace SpirvInspector.Text

namespace Column

/-- The text in the place of a column: a cell with blanks on the side away from its end, or blanks
alone. -/
def shown (column : Column) (row : Nat) : Bytes :=
  match column.rows[row]? with
  | some cell =>
    let blanks := List.replicate (column.width - cell.length) Bytes.space
    if column.numeric then blanks ++ cell else cell ++ blanks
  | none => List.replicate column.width Bytes.space

end Column

namespace Table

/-- The bytes of a line in front of the place of a column. -/
def start (delimiter : Bytes) (before : Table) : Nat :=
  (before.map Column.width).sum + before.length * delimiter.length

/-- Lines that show a table. -/
structure Rectangular (table : Table) (delimiter : Bytes) (lines : List Bytes) : Prop where
  empty : table = [] → lines = []
  height : table ≠ [] → IsGreatest {n | ∃ column ∈ table, column.rows.length = n} lines.length
  width : ∀ column ∈ table, IsGreatest {n | ∃ row ∈ column.rows, row.length = n} column.width
  length : ∀ line ∈ lines,
    line.length = (table.map Column.width).sum + (table.length - 1) * delimiter.length
  cells : ∀ row line, lines[row]? = some line →
    line = delimiter.intercalate (table.map fun column => column.shown row)
  slice : ∀ row line, lines[row]? = some line → ∀ before column later,
    table = before ++ column :: later →
      (line.drop (start delimiter before)).take column.width = column.shown row

end Table

theorem isGreatest_foldl_max {α : Type} (size : α → Nat) {values : List α} (filled : values ≠ []) :
    IsGreatest {n | ∃ value ∈ values, size value = n} ((values.map size).foldl max 0) := by
  rw [List.foldl_max, Nat.zero_max]
  cases greatest : (values.map size).max? with
  | none =>
    rw [List.max?_eq_none_iff, List.map_eq_nil_iff] at greatest
    exact (filled greatest).elim
  | some n =>
    obtain ⟨isIn, bound⟩ := List.max?_eq_some_iff.mp greatest
    constructor
    · exact List.mem_map.mp isIn
    · rintro _ ⟨value, isValue, rfl⟩
      exact bound _ (List.mem_map_of_mem isValue)

namespace Column

theorem isGreatest_width (column : Column) :
    IsGreatest {n | ∃ row ∈ column.rows, row.length = n} column.width :=
  isGreatest_foldl_max List.length (List.cons_ne_nil _ _)

theorem cell_eq_shown (column : Column) (row : Nat) : column.cell row = column.shown row := by
  rw [cell, shown, align, List.getD_eq_getElem?_getD]
  cases column.rows[row]? with
  | none => simp [padLeft, padRight]
  | some cell => rfl

theorem length_shown (column : Column) (row : Nat) :
    (column.shown row).length = column.width := by
  unfold shown
  split
  · next cell isCell =>
    have fits : cell.length ≤ column.width :=
      column.isGreatest_width.2 ⟨cell, List.mem_of_getElem? isCell, rfl⟩
    split <;> simp <;> omega
  · simp

theorem newline_notMem_shown {column : Column} (unbroken : ∀ row ∈ column.rows, Bytes.newline ∉ row)
    (row : Nat) : Bytes.newline ∉ column.shown row := by
  have blank : Bytes.newline ≠ Bytes.space := by decide
  unfold shown
  split
  · next cell isCell =>
    have unbrokenCell := unbroken cell (List.mem_of_getElem? isCell)
    split <;> simp [unbrokenCell, blank]
  · simp [blank]

end Column

/-- A part of a joined text, behind the earlier parts with their separators. -/
theorem intercalate_append_cons (separator : Bytes) (before : List Bytes) (part : Bytes)
    (later : List Bytes) :
    separator.intercalate (before ++ part :: later) =
      before.flatMap (· ++ separator) ++ (part ++ later.flatMap (separator ++ ·)) := by
  induction before with
  | nil => exact intercalate_cons separator part later
  | cons first before inductionHypothesis =>
    have joined : separator.intercalate (first :: (before ++ part :: later)) =
        first ++ separator ++ separator.intercalate (before ++ part :: later) := by
      cases before <;> exact List.intercalate_cons_cons
    rw [List.cons_append, joined, inductionHypothesis]
    simp

namespace Table

variable (table : Table) (delimiter : Bytes)

theorem line_eq (row : Nat) :
    table.line delimiter row =
      delimiter.intercalate (table.map fun column => column.shown row) := by
  simp only [line, Column.cell_eq_shown]

/-- The lines of a table. -/
def lines : List Bytes :=
  (List.range table.height).map (table.line delimiter)

theorem render_eq_lines :
    table.render delimiter = (table.lines delimiter).flatMap (· ++ [Bytes.newline]) := by
  rw [render, lines, List.flatMap_map]

theorem length_lines : (table.lines delimiter).length = table.height := by
  simp [lines]

variable {table delimiter}

theorem line_of_getElem? {row : Nat} {line : Bytes}
    (isLine : (table.lines delimiter)[row]? = some line) : line = table.line delimiter row := by
  rw [lines, List.getElem?_map, Option.map_eq_some_iff] at isLine
  obtain ⟨number, isNumber, rfl⟩ := isLine
  obtain ⟨_, rfl⟩ := List.getElem?_eq_some_iff.mp isNumber
  rw [List.getElem_range]

theorem length_delimited (columns : Table) (delimiter : Bytes) (row : Nat) :
    ((columns.map fun column => column.shown row).flatMap (· ++ delimiter)).length =
      start delimiter columns := by
  simp [start, List.length_flatMap, Function.comp_def, Column.length_shown, List.sum_map_add]

theorem length_line (row : Nat) :
    (table.line delimiter row).length =
      (table.map Column.width).sum + (table.length - 1) * delimiter.length := by
  cases table using List.reverseRecOn with
  | nil => simp [line, List.intercalate]
  | append_singleton before column =>
    rw [line_eq, List.map_append, List.map_singleton, intercalate_append_cons, List.length_append,
      length_delimited, start]
    simp [Column.length_shown]
    omega

theorem newline_notMem_line
    (unbroken : ∀ column ∈ table, ∀ row ∈ column.rows, Bytes.newline ∉ row)
    (unbrokenDelimiter : Bytes.newline ∉ delimiter) (row : Nat) :
    Bytes.newline ∉ table.line delimiter row := by
  have unbrokenPlace (column : Column) (isColumn : column ∈ table) :
      Bytes.newline ∉ column.shown row :=
    Column.newline_notMem_shown (unbroken column isColumn) row
  rw [line_eq]
  cases table with
  | nil => simp [List.intercalate]
  | cons column others =>
    obtain ⟨unbrokenFirst, unbrokenOthers⟩ := List.forall_mem_cons.mp unbrokenPlace
    rw [List.map_cons, intercalate_cons]
    simpa [unbrokenFirst, unbrokenDelimiter] using unbrokenOthers

theorem slice_line (before : Table) (column : Column) (later : Table) (delimiter : Bytes)
    (row : Nat) :
    ((line (before ++ column :: later) delimiter row).drop (start delimiter before)).take
      column.width = column.shown row := by
  rw [line_eq, List.map_append, List.map_cons, intercalate_append_cons,
    List.drop_left' (length_delimited before delimiter row),
    List.take_left' (column.length_shown row)]

theorem rectangular_lines (table : Table) (delimiter : Bytes) :
    Rectangular table delimiter (table.lines delimiter) := by
  constructor
  case empty =>
    rintro rfl
    rfl
  case height =>
    intro filled
    rw [length_lines]
    exact isGreatest_foldl_max (fun column => column.rows.length) filled
  case width =>
    intro column _
    exact column.isGreatest_width
  case length =>
    intro line isLine
    obtain ⟨row, isRow⟩ := List.mem_iff_getElem?.mp isLine
    rw [line_of_getElem? isRow]
    exact length_line row
  case cells =>
    intro row line isLine
    rw [line_of_getElem? isLine]
    exact table.line_eq delimiter row
  case slice =>
    rintro row line isLine before column later rfl
    rw [line_of_getElem? isLine]
    exact slice_line before column later delimiter row

/-- A table is rendered in unbroken lines that show it as a rectangle. It can be filled cell by
cell, and however it is filled, the widths kept meanwhile are those of its columns, and it is
printed as it is rendered. -/
theorem render_rectangular (table : Table) (delimiter : Bytes)
    (unbroken : ∀ column ∈ table, ∀ row ∈ column.rows, Bytes.newline ∉ row)
    (unbrokenDelimiter : Bytes.newline ∉ delimiter) :
    (∃ lines, table.render delimiter = lines.flatMap (· ++ [Bytes.newline]) ∧
      (∀ line ∈ lines, Bytes.newline ∉ line) ∧ Rectangular table delimiter lines) ∧
    (∃ fillings, (Sheet.ofFillings fillings).table = table) ∧
    ∀ fillings, (Sheet.ofFillings fillings).table = table →
      (Sheet.ofFillings fillings).map MeasuredColumn.width = table.map Column.width ∧
      ∀ output, ((Sheet.ofFillings fillings).print delimiter output).written =
        output.written ++ table.render delimiter := by
  refine ⟨⟨table.lines delimiter, table.render_eq_lines delimiter, ?_,
    table.rectangular_lines delimiter⟩, Sheet.exists_fillings table, ?_⟩
  · intro line isLine
    obtain ⟨row, isRow⟩ := List.mem_iff_getElem?.mp isLine
    rw [line_of_getElem? isRow]
    exact newline_notMem_line unbroken unbrokenDelimiter row
  · rintro fillings rfl
    exact ⟨Sheet.widths_ofFillings fillings, fun output =>
      Sheet.written_print (Sheet.exact_ofFillings fillings) delimiter output⟩

/-- Two columns, of which the second is lower and has the longer label. -/
def opcodeCounts : Table :=
  [⟨ascii "op", false, [ascii "OpLoad", ascii "OpBranch"]⟩, ⟨ascii "count", true, [ascii "12"]⟩]

/-- The same columns, with their cells added in turn. -/
def countFillings : List Filling :=
  [.define (ascii "op") false, .add 0 (ascii "OpLoad"), .define (ascii "count") true,
    .add 1 (ascii "12"), .add 0 (ascii "OpBranch")]

def opcodeCountsText : Bytes :=
  ascii "op        count\nOpLoad       12\nOpBranch       \n"

theorem render_opcodeCounts :
    (∃ lines, opcodeCountsText = lines.flatMap (· ++ [Bytes.newline]) ∧
      (∀ line ∈ lines, Bytes.newline ∉ line) ∧
      Rectangular opcodeCounts (ascii "  ") lines) ∧
    ((Sheet.ofFillings countFillings).print (ascii "  ") ⟨ascii ">", 48, true, 7⟩).written =
      ascii ">" ++ opcodeCountsText := by
  have rendered : opcodeCounts.render (ascii "  ") = opcodeCountsText := by decide
  obtain ⟨shown, -, printed⟩ := render_rectangular opcodeCounts (ascii "  ") (by decide) (by decide)
  have filled := printed countFillings rfl
  rw [rendered] at shown filled
  exact ⟨shown, filled.2 _⟩

end Table

end SpirvInspector.Text
