import Metamath.Number.Fraction
import Metamath.Number.Integer

/-!
# Values of flags

How truth values (`boolean?`), whole numbers (`integer?`) and durations (`duration?`) are written on
the command line.
-/

namespace Metamath.Command

/-- A truth value. -/
def boolean? (s : String) : Option Bool :=
  if ["1", "t", "T", "true", "True", "TRUE"].contains s then some true
  else if ["0", "f", "F", "false", "False", "FALSE"].contains s then some false
  else none

/-! ## Whole numbers -/

/-- A whole number of 64 bits. -/
def integer? (s : String) : Option Int :=
  let p := splitSign s.toList
  (magnitude? p.2).bind (withSign? p.1)

/-! ## Durations -/

/-- The nanoseconds of a unit. -/
def unit? (name : List Char) : Option Nat :=
  match String.ofList name with
  | "ns" => some 1
  | "us" | "µs" | "μs" => some 1000
  | "ms" => some 1000000
  | "s" => some 1000000000
  | "m" => some 60000000000
  | "h" => some 3600000000000
  | _ => none

/-- Whether a character can stand in a decimal fraction. -/
def isNumeral (c : Char) : Bool :=
  c.isDigit || c == '.'

/-- The number that decimal digits stand for. -/
def decimal (cs : List Char) : Nat :=
  cs.foldl (fun n c => 10 * n + (c.toNat - '0'.toNat)) 0

/-- The number that digits after the point stand for, after those that gave `n`, and the power of
ten that divides it. Digits that would take the number out of 63 bits are passed over. -/
def decimals (n : Nat) (scale : Fraction) : List Char → Nat × Fraction
  | [] => (n, scale)
  | c :: cs =>
    let next := 10 * n + (c.toNat - '0'.toNat)
    if n ≤ 922337203685477580 ∧ next ≤ 0x8000000000000000 then
      decimals next (scale.mul (.ofNat 10)).round cs
    else (n, scale)

/-- The whole parts of a unit of `unit` parts in the digits after the point. -/
def share (unit : Nat) (digits : List Char) : Nat :=
  let (n, scale) := decimals 0 (.ofNat 1) digits
  if n = 0 then 0
  else ((Fraction.ofNat n).round.mul ((Fraction.ofNat unit).div scale).round).round.floor

/-- How often a decimal fraction holds a unit of `unit` parts, in whole parts. There are at most
2^63 of them. -/
def scale? (fraction : List Char) (unit : Nat) : Option Nat :=
  let whole := fraction.takeWhile Char.isDigit
  let digits := (fraction.dropWhile Char.isDigit).drop 1
  if (whole.isEmpty && digits.isEmpty) || !digits.all Char.isDigit then none
  else if decimal whole * unit + share unit digits ≤ 0x8000000000000000 then
    some (decimal whole * unit + share unit digits)
  else none

/-- The sum of `total` and of fractions that are each followed by a unit. A sum of 2^64 is counted
as zero, and any other beyond 2^63 is refused. -/
def nanoseconds? (total : Nat) : List (List Char) → Option Nat
  | [] => some total
  | [_] => none
  | fraction :: name :: rest => do
    let unit ← unit? name
    let sum := (total + (← scale? fraction unit)) % 0x10000000000000000
    if sum ≤ 0x8000000000000000 then nanoseconds? sum rest else none

/-- A duration in nanoseconds, such as `1h30m` or `-1.5s`. Only zero needs no unit. -/
def duration? (s : String) : Option Int :=
  let p := splitSign s.toList
  if p.2 = ['0'] then some 0
  else if p.2.isEmpty then none
  else (nanoseconds? 0 (p.2.splitBy fun a b => isNumeral a == isNumeral b)).bind (withSign? p.1)

end Metamath.Command
