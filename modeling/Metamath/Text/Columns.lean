import Metamath.Text.Split

/-!
# Aligned columns

`alignColumns` lays out a text whose cells end in tabs. A cell is filled with spaces to the width
of its column: the widest cell of the neighbouring lines that have a cell in that column, and a
margin. What follows the last tab of a line stands as it is.
-/

namespace Metamath.Text

/-- A line as its cells and the rest after them. -/
structure TableLine where
  cells : List (List Char)
  rest : List Char
deriving Repr

/-- The cells of a line end in tabs. -/
def TableLine.ofChars (cs : List Char) : TableLine :=
  let pieces := splitWhere (fun c => c == '\t' || c == '\x0b') cs
  ⟨pieces.dropLast, pieces.getLastD []⟩

/-- The width of a column over the lines at the start of a list that have it. -/
def columnWidth (column : Nat) (lines : List TableLine) : Nat :=
  ((lines.takeWhile fun l => column < l.cells.length).map fun l =>
    (l.cells[column]?.getD []).length).foldl max 0

/-- A line with its cells filled up, between the lines above it, the nearest first, and below. -/
def alignLine (margin : Nat) (above : List TableLine) (l : TableLine) (below : List TableLine) :
    List Char :=
  let cell (column : Nat) (cs : List Char) :=
    let width := max (columnWidth column (l :: above)) (columnWidth column (l :: below))
    cs ++ List.replicate (width + margin - cs.length) ' '
  (l.cells.zipIdx.flatMap fun (cs, column) => cell column cs) ++ l.rest

/-- Aligns lines below some others, which are given the nearest first. -/
def alignLines (margin : Nat) (above : List TableLine) : List TableLine → List (List Char)
  | [] => []
  | l :: below => alignLine margin above l below :: alignLines margin (l :: above) below

/-- The text with its columns aligned. A form feed ends a line and all columns. -/
def alignColumns (margin : Nat) (text : String) : String :=
  let parts := splitWhere (· == '\x0c') text.toList
  let aligned := parts.map fun part =>
    ['\n'].intercalate (alignLines margin [] ((splitWhere (· == '\n') part).map TableLine.ofChars))
  String.ofList (['\n'].intercalate aligned)

end Metamath.Text
