import TenantAccess.Text.Columns

/-!
# Tables

A table has rounded borders and one rule, below its header.  Columns are as wide as their widest
cell, with a blank on each side.
-/

namespace TenantAccess

structure Table where
  header : List String
  rows : List (List String)

namespace Table

def cellLines (cell : String) : List String := cell.splitOn "\n"

def cellWidth (cell : String) : Nat := ((cellLines cell).map columns).foldl max 0

def widths (t : Table) : List Nat :=
  t.rows.foldl (fun ws row ↦ ws.zipWith max (row.map cellWidth)) (t.header.map cellWidth)

/-- A line between rows, from its two ends, its crossings and what runs between them. -/
def rule (left crossing right : String) (widths : List Nat) : String :=
  left ++ crossing.intercalate (widths.map fun w ↦ String.ofList (List.replicate (w + 2) '─')) ++
    right

/-- A text with blanks behind it up to a width. -/
def padded (width : Nat) (s : String) : String :=
  s ++ String.ofList (List.replicate (width - columns s) ' ')

/-- The lines of a row: as many as its highest cell has. -/
def rowLines (widths : List Nat) (row : List String) : List String :=
  let cells := row.map cellLines
  (List.range ((cells.map List.length).foldl max 0)).map fun n ↦
    "│ " ++ " │ ".intercalate
      (widths.zipWith (fun w cell ↦ padded w (cell.getD n "")) cells) ++ " │"

def lines (t : Table) : List String :=
  let ws := t.widths
  [rule "╭" "┬" "╮" ws] ++ rowLines ws t.header ++ [rule "├" "┼" "┤" ws] ++
    t.rows.flatMap (rowLines ws) ++ [rule "╰" "┴" "╯" ws]

def text (t : Table) : String := "\n".intercalate t.lines

end Table

end TenantAccess
