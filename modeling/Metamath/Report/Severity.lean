import Metamath.Text.Quoted

/-!
# Severities

How grave an issue is. Severities have numbers from 0 on; a number without a severity is kept as
`unknown`.
-/

namespace Metamath

/-- The grade of an issue. -/
inductive Severity where
  | error
  | warning
  | info
  | off
  | unknown (code : Int)
deriving DecidableEq, Repr, Inhabited

namespace Severity

/-- The severities that have a name. -/
def known : List Severity :=
  [error, warning, info, off]

/-- The name of a severity. -/
def name : Severity → String
  | error => "ERROR"
  | warning => "WARNING"
  | info => "INFO"
  | off => "OFF"
  | unknown _ => "UNKNOWN"

/-- The number of a severity. -/
def code : Severity → Int
  | error => 0
  | warning => 1
  | info => 2
  | off => 3
  | unknown code => code

/-- The severity with a number. -/
def ofCode (code : Int) : Severity :=
  (known.find? fun s => s.code == code).getD (unknown code)

/-- The severity with a name, in upper or lower case. -/
def ofName? (name : String) : Option Severity :=
  known.find? fun s => s.name == name.map Char.toUpper

/-- What is said of a text that names no severity. -/
def unknownName (name : String) : String :=
  "unknown severity " ++ Text.quote name

end Severity

end Metamath
