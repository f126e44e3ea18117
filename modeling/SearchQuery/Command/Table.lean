import SearchQuery.Text.Columns
import SearchQuery.Token
set_option autoImplicit false

/-!
# Tables of text

A table is framed by box-drawing characters. Every column is as wide as its widest cell, with one
blank on either side, and cells stand at the left. A line break in a cell splits the row.
-/

namespace SearchQuery.Table

def cellLines (cell : String) : List String :=
  cell.splitOn "\n"

/-- The columns of the terminal that a cell takes. -/
def cellColumns (cell : String) : Nat :=
  ((cellLines cell).map Text.columns).foldl max 0

/-- The columns of the terminal that each column of the table takes, without the blanks
beside it. -/
def columnWidths (rows : List (List String)) : List Nat :=
  rows.foldl (fun widths row =>
    let cells := row.map cellColumns
    (cells.zipWith max widths) ++ (cells.drop widths.length) ++ (widths.drop cells.length)) []

/-- A text and as many blanks as fill a width. -/
def fill (width : Nat) (text : String) : String :=
  text ++ String.ofList (List.replicate (width - Text.columns text) ' ')

def rowLines (widths : List Nat) (row : List String) : List String :=
  let cells := row.map cellLines
  let height := (cells.map List.length).foldl max 0
  (List.range height).map fun index =>
    let texts := (widths.zip cells).map fun (width, lines) =>
      " " ++ fill width (lines[index]?.getD "") ++ " "
    "│" ++ "┆".intercalate texts ++ "│"

/-- A line across the table. -/
def border (left middle right : String) (stroke : Char) (widths : List Nat) : String :=
  let strokes := widths.map fun width => String.ofList (List.replicate (width + 2) stroke)
  left ++ middle.intercalate strokes ++ right

/-- A table with a header, its last line not closed. -/
def render (header : List String) (rows : List (List String)) : String :=
  let widths := columnWidths (header :: rows)
  "\n".intercalate
    ([border "┌" "┬" "┐" '─' widths] ++ rowLines widths header ++
      [border "╞" "╪" "╡" '═' widths] ++ rows.flatMap (rowLines widths) ++
      [border "└" "┴" "┘" '─' widths])

def ofTokens (tokens : List Token) : String :=
  render ["#", "Kind", "Text", "Span"]
    (tokens.mapIdx fun index token =>
      [toString index, token.kind.name, token.text,
        toString token.start ++ ".." ++ toString token.stop])

end SearchQuery.Table
