import Narrative.Text.Width

/-!
Tables of text with frames. A cell holds lines of text; each column is as wide as its widest line,
and each row as high as its highest cell.
-/

set_option autoImplicit false

namespace Narrative.Table

def linesOf (text : String) : List String := (text.toList.splitOn '\n').map String.ofList

def cellWidth (cell : String) : Nat := ((linesOf cell).map displayWidth).foldl max 0

/-- The widths of columns that hold each of the rows. -/
def columnWidths : List (List String) → List Nat
  | [] => []
  | row :: rows => widen (row.map cellWidth) (columnWidths rows)
where
  /-- The greater width column by column. -/
  widen : List Nat → List Nat → List Nat
    | first :: firsts, second :: seconds => max first second :: widen firsts seconds
    | [], seconds => seconds
    | firsts, [] => firsts

/-- A character, so many times. -/
def fill (c : Char) (count : Nat) : String := String.ofList (List.replicate count c)

/-- A line with spaces up to a width. -/
def pad (width : Nat) (line : String) : String := line ++ fill ' ' (width - displayWidth line)

/-- A line between rows. -/
def rule (left inner right : String) (line : Char) (widths : List Nat) : String :=
  left ++ String.intercalate inner (widths.map (fun width => fill line (width + 2))) ++ right

/-- The lines of a row of cells, with empty lines below the cells that are not as high as the
highest. -/
def row (widths : List Nat) (cells : List String) : List String :=
  let cells := cells.map linesOf
  let height := (cells.map List.length).foldl max 0
  (List.range height).map (fun index =>
    "| " ++ String.intercalate " | " (List.zipWith pad widths
      (cells.map (fun lines => lines.getD index ""))) ++ " |")

def render (header : List String) (rows : List (List String)) : List String :=
  let widths := columnWidths (header :: rows)
  let border := rule "+" "+" "+" '-' widths
  let between := [rule "|" "+" "|" '-' widths]
  [border] ++ row widths header ++ [rule "+" "=" "+" '=' widths] ++
    ((rows.map (row widths)).intersperse between).flatten ++ [border]

end Narrative.Table
