import Metamath.Diagnostic.Cause
import Metamath.Position

/-!
# Diagnostics

A `Diagnostic` is a fault of a database: its cause, and where it was found as far as that is
known (the kind of statement, its label and the position in the text).
-/

namespace Metamath

/-- A fault of a database. An empty text or an unknown position says "not known". -/
structure Diagnostic where
  cause : Cause
  stmt : String := ""
  label : Label := ""
  pos : Position := {}
deriving DecidableEq, Repr

namespace Diagnostic

/-- The kind of the fault. -/
def kind (d : Diagnostic) : Kind :=
  d.cause.kind

/-- What the fault is, in words. -/
def message (d : Diagnostic) : String :=
  d.cause.message

/-- Adds a place to a diagnostic. What it knows already stays. -/
def locate (d : Diagnostic) (stmt : String) (label : Label) (pos : Position) : Diagnostic :=
  { d with
    stmt := if d.stmt = "" then stmt else d.stmt
    label := if d.label = "" then label else d.label
    pos := if d.pos.isValid then d.pos else pos }

/-- One line for a fault: the position, when it is known, the rule and the message. -/
def line (pos : Position) (rule message : String) : String :=
  (if pos.isValid then pos.text ++ ": " else "") ++ rule ++ ": " ++ message

/-- The diagnostic in one line. -/
def text (d : Diagnostic) : String :=
  line d.pos d.kind.name d.message

/-- The statement in words, for the note under an issue. -/
def note (d : Diagnostic) : String :=
  match d.stmt, d.label with
  | "", "" => ""
  | "", label => s!"in statement {label}"
  | stmt, "" => s!"in {stmt} statement"
  | stmt, label => s!"in {stmt} statement {label}"

end Diagnostic

end Metamath
