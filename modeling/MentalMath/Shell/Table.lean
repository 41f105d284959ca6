import MentalMath.Text.Cut
import MentalMath.Text.Width

/-! Tables in plain characters. A column is as wide as its widest line on a terminal, the text of a
cell stands at the left with a space on either side, and a cell with several lines makes its row as
high. -/

namespace MentalMath.Shell

open Text

/-- A table. All rows have as many cells as the header. -/
structure Table where
  header : List String
  rows : List (List String)
  deriving DecidableEq, Repr

namespace Table

/-- The lines of a cell. -/
def cellLines (cell : String) : List String :=
  (pieces '\n' cell.toList).map String.ofList

/-- The columns of the terminal that a cell takes. -/
def cellWidth (cell : String) : Nat :=
  ((cellLines cell).map width).foldl max 0

/-- The width of each column. -/
def widths (t : Table) : List Nat :=
  t.rows.foldl (fun ws row => ws.zipWith max (row.map cellWidth)) (t.header.map cellWidth)

/-- A text with spaces after it up to a width on the terminal. -/
def padded (columns : Nat) (s : String) : String :=
  s ++ String.ofList (List.replicate (columns - width s) ' ')

/-- A line across the table. -/
def rule (edge joint fill : Char) (ws : List Nat) : String :=
  let fills := ws.map fun w => List.replicate (w + 2) fill
  String.ofList (edge :: [joint].intercalate fills ++ [edge])

/-- A line of a row, from the texts that it has in the columns. -/
def rowLine (ws : List Nat) (texts : List String) : String :=
  "|" ++ "|".intercalate (ws.zipWith (fun w s => " " ++ padded w s ++ " ") texts) ++ "|"

/-- The lines of a row. -/
def rowLines (ws : List Nat) (row : List String) : List String :=
  let cells := row.map cellLines
  let height := (cells.map List.length).foldl max 0
  (List.range height).map fun i => rowLine ws (cells.map fun ls => ls.getD i "")

def lines (t : Table) : List String :=
  let ws := t.widths
  let outside := rule '+' '+' '-' ws
  let between := rule '|' '+' '-' ws
  outside :: rowLines ws t.header ++ rule '+' '=' '=' ws ::
    ((t.rows.map (rowLines ws)).intersperse [between]).flatten ++ [outside]

end Table

end MentalMath.Shell
