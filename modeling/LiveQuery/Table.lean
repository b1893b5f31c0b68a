import LiveQuery.Text.Width

/-!
# Tables

A table with a heading, drawn with lines. Each column is as wide as its widest line and has a blank
on either side; a cell may hold several lines.
-/

namespace LiveQuery

/-- A table: its heading, and rows with a cell for each column. -/
structure Table where
  heading : List String
  rows : List (List String)
  deriving Repr

namespace Table

/-- The lines of a cell. -/
def lines (cell : String) : List String := cell.splitOn "\n"

/-- How many cells of the grid a cell takes. -/
def cellWidth (cell : String) : Nat := ((lines cell).map Text.width).foldl max 0

/-- How wide each column is, without the blanks beside it. -/
def widths (t : Table) : List Nat :=
  t.rows.foldl (fun ws row => List.zipWith max ws (row.map cellWidth)) (t.heading.map cellWidth)

/-- A horizontal line: its left end, what it is drawn with, its crossings and its right end. -/
def rule (left line cross right : Char) (widths : List Nat) : String :=
  let segments := widths.map fun w => String.ofList (List.replicate (w + 2) line)
  left.toString ++ cross.toString.intercalate segments ++ right.toString

/-- A line of a cell, filled up to the width of its column. -/
def padded (width : Nat) (line : String) : String :=
  " " ++ line ++ String.ofList (List.replicate (width - Text.width line) ' ') ++ " "

/-- The lines of a row: the first lines of all cells, then the second ones, and so on. -/
def rowLines (widths : List Nat) (row : List String) : List String :=
  let cells := row.map lines
  let height := (cells.map List.length).foldl max 0
  (List.range height).map fun i =>
    let parts := List.zipWith (fun w (cell : List String) => padded w (cell[i]?.getD ""))
      widths cells
    "│" ++ "┆".intercalate parts ++ "│"

/-- The lines of a table. -/
def allLines (t : Table) : List String :=
  let ws := t.widths
  let between := rule '├' '╌' '┼' '┤' ws
  let body := (t.rows.map (rowLines ws)).intersperse [between]
  rule '┌' '─' '┬' '┐' ws :: rowLines ws t.heading ++ rule '╞' '═' '╪' '╡' ws :: body.flatten
    ++ [rule '└' '─' '┴' '┘' ws]

/-- The table, without a line break at its end. -/
def render (t : Table) : String := "\n".intercalate t.allLines

end Table
end LiveQuery
