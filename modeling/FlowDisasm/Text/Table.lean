import FlowDisasm.Text.Aligned
import FlowDisasm.Text.Blank

/-!
# Tables and field lists

A table has a head and rows of cells. Every column is as wide as its widest line, two blanks stand between
columns, and blanks at the end of a line are left out. A cell of several lines makes its row as high. A
field list is a title with one name and one value a line.
-/
namespace FlowDisasm.Text

/-- A column of a table. -/
structure Column where
  title : String
  alignment : Alignment := .left

def cellLines (cell : String) : List String :=
  cell.splitOn "\n"

/-- A table. -/
structure Table where
  columns : List Column
  rows : List (List String)

namespace Table

def allRows (table : Table) : List (List String) :=
  table.columns.map Column.title :: table.rows

def longest (lengths : List Nat) : Nat :=
  lengths.foldl max 0

def columnWidth (table : Table) (index : Nat) : Nat :=
  longest (table.allRows.flatMap fun row =>
    (cellLines (row.getD index "")).map String.length)

def widths (table : Table) : List (Alignment × Nat) :=
  table.columns.mapIdx fun index column => (column.alignment, table.columnWidth index)

def line (widths : List (Alignment × Nat)) (cells : List (List String)) (index : Nat) : String :=
  let parts := (widths.zip cells).map fun ((alignment, width), lines) =>
    aligned alignment width (lines.getD index "")
  String.ofList (trimEnd ("  ".intercalate parts).toList)

def rowLines (widths : List (Alignment × Nat)) (row : List String) : List String :=
  let cells := row.map cellLines
  (List.range (longest (cells.map List.length))).map (line widths cells)

def render (table : Table) (margin : String) : String :=
  let widths := table.widths
  String.join ((table.allRows.flatMap (rowLines widths)).map fun line => margin ++ line ++ "\n")

end Table

/-- A title with names and values under it. -/
def fieldList (title : String) (fields : List (String × String)) : String :=
  let width := Table.longest (fields.map fun (name, _) => name.length)
  title ++ "\n"
    ++ String.join (fields.map fun (name, value) =>
      "  " ++ aligned .left width name ++ "  " ++ value ++ "\n")

end FlowDisasm.Text
