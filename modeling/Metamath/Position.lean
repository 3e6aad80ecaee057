/-!
# Positions

A `Position` is a place in a named text. A position with no positive line is no place at all, and
stands for "unknown".
-/

namespace Metamath

/-- A place in a text: the byte offset counts from 0, line and column count from 1. -/
structure Position where
  filename : String := ""
  offset : Int := 0
  line : Int := 0
  column : Int := 0
deriving DecidableEq, Repr, Inhabited

namespace Position

/-- Whether the position is known. -/
def isValid (p : Position) : Bool :=
  0 < p.line

/-- The position as `file:line:column`. An unknown line, a column 0 and an empty name are left
out, and `-` stands for a position with none of them. -/
def text (p : Position) : String :=
  let place :=
    if p.isValid then
      (if p.filename = "" then "" else ":") ++ toString p.line ++
        (if p.column = 0 then "" else ":" ++ toString p.column)
    else ""
  let whole := p.filename ++ place
  if whole = "" then "-" else whole

end Position

end Metamath
