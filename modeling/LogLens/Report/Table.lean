/-
Tables drawn with box characters.

Every column is as wide as its widest cell line, with one blank on either side.  A cell may have
several lines; its row is as high as its highest cell.
-/
import LogLens.Text.Columns
import LogLens.Text.Slice

namespace LogLens
namespace Report

structure Table where
  headers : List String
  rows : List (List String)

namespace Table

/-- The lines of a cell. -/
def cellLines (cell : String) : List String :=
  (splitAtAny (· == '\n') cell.toList).map String.ofList

def cellWidth (cell : String) : Nat :=
  ((cellLines cell).map columns).foldl max 0

/-- The width of every column. -/
def widths (t : Table) : List Nat :=
  t.rows.foldl (fun ws row => List.zipWith max ws (row.map cellWidth)) (t.headers.map cellWidth)

def repeated (s : String) : Nat → String
  | 0 => ""
  | n + 1 => s ++ repeated s n

/-- A line between rows. -/
def rule (left fill cross right : String) (ws : List Nat) : String :=
  left ++ joinWith cross (ws.map fun w => repeated fill (w + 2)) ++ right

/-- One line of a cell, filled up with blanks. -/
def padded (s : String) (width : Nat) : String :=
  " " ++ s ++ repeated " " (width - columns s) ++ " "

/-- The lines of a row. -/
def rowLines (ws : List Nat) (row : List String) : List String :=
  let cells := row.map cellLines
  let height := (cells.map List.length).foldl max 0
  (List.range height).map fun i =>
    "│" ++ joinWith "┆" (List.zipWith (fun cell w => padded (cell.getD i "") w) cells ws) ++ "│"

/-- The rows with a line between each two. -/
def bodyLines (ws : List Nat) : List (List String) → List String
  | [] => []
  | [row] => rowLines ws row
  | row :: rest => rowLines ws row ++ rule "├" "╌" "┼" "┤" ws :: bodyLines ws rest

/-- The table as text, without a line feed at its end. -/
def draw (t : Table) : String :=
  let ws := t.widths
  joinWith "\n" ([rule "╭" "─" "┬" "╮" ws] ++ rowLines ws t.headers ++ [rule "╞" "═" "╪" "╡" ws] ++
    bodyLines ws t.rows ++ [rule "╰" "─" "┴" "╯" ws])

end Table
end Report
end LogLens
