import SpirvInspector.Text.Digits

/-!
# Text tables

A table is a list of columns of independent height. A column is as wide as its longest cell, its
label included; a short column is filled up with blank cells.
-/

set_option autoImplicit false

namespace SpirvInspector.Text

structure Column where
  label : Bytes
  /-- Numbers stand at the right end of their column, text at the left. -/
  numeric : Bool
  cells : List Bytes

namespace Column

def rows (column : Column) : List Bytes :=
  column.label :: column.cells

def width (column : Column) : Nat :=
  (column.rows.map List.length).foldl max 0

def align (column : Column) (cell : Bytes) : Bytes :=
  if column.numeric then padLeft column.width Bytes.space cell
  else padRight column.width Bytes.space cell

/-- The aligned cell of a row, blank below the end of the column. -/
def cell (column : Column) (row : Nat) : Bytes :=
  column.align (column.rows.getD row [])

end Column

abbrev Table := List Column

namespace Table

def height (table : Table) : Nat :=
  (table.map (fun column => column.rows.length)).foldl max 0

def line (table : Table) (delimiter : Bytes) (row : Nat) : Bytes :=
  delimiter.intercalate (table.map (fun column => column.cell row))

def render (table : Table) (delimiter : Bytes) : Bytes :=
  (List.range table.height).flatMap fun row => table.line delimiter row ++ [Bytes.newline]

end Table

end SpirvInspector.Text
