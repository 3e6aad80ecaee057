import Metamath.Text.Utf8

/-!
# Source lines

Where things stand in a line of source text: the width of a text on the screen, the end of a
token, the indentation that lines have in common.
-/

namespace Metamath.Layout

open Text

/-- The column after a character. A tab leads to the next multiple of eight. -/
def advance (width : Nat) (g : Glyph) : Nat :=
  if g.code? = some 9 then (width / 8 + 1) * 8 else width + 1

/-- The number of columns that a text takes on the screen. -/
def visualWidth (bs : Bytes) : Nat :=
  (glyphs bs).foldl advance 0

/-- The first `n` bytes of a line, as far as it has them. -/
def firstBytes (line : Bytes) (n : Int) : Bytes :=
  line.take n.toNat

/-- The lines from `first` to `last`, counted from 1, if the text has them all. -/
def lineRange? (lines : List Bytes) (first last : Int) : Option (List Bytes) :=
  if first < 1 ∨ last < first ∨ lines.length < last then none
  else some ((lines.take last.toNat).drop (first.toNat - 1))

/-- The column of the last byte of the token that starts at a column of a line. -/
def tokenEnd (lines : List Bytes) (line column : Int) : Int :=
  if line < 1 ∨ lines.length < line ∨ column < 1 then column
  else
    let text := lines[line.toNat - 1]?.getD []
    column + ((text.drop column.toNat).takeWhile fun b => !isBlank b.toNat).length

/-- What two byte strings have in common at the start. -/
def commonStart : Bytes → Bytes → Bytes
  | a :: as, b :: bs => if a = b then a :: commonStart as bs else []
  | _, _ => []

/-- The indentation that all lines with text have in common. -/
def commonIndent (lines : List Bytes) : Bytes :=
  match (lines.filter fun l => !isAllBlank l).map leadingBlanks with
  | [] => []
  | lead :: leads => leads.foldl commonStart lead

/-- A line without an indentation, if it has it. -/
def removeIndent (indent line : Bytes) : Bytes :=
  if indent.isPrefixOf line then line.drop indent.length else line

end Metamath.Layout
