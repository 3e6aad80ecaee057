/-!
# Integers as text

Digits of a base, a sign in front of them and a mark like `0x` that says the base.
-/

namespace Metamath

/-- Splits off a sign. The first part says whether it is a minus. -/
def splitSign : List Char → Bool × List Char
  | '-' :: cs => (true, cs)
  | '+' :: cs => (false, cs)
  | cs => (false, cs)

/-- A magnitude with its sign, if it fits into 64 bits. -/
def withSign? (negative : Bool) (n : Nat) : Option Int :=
  if negative then if n ≤ 0x8000000000000000 then some (-n) else none
  else if n < 0x8000000000000000 then some n else none

/-- The value of a digit, or of a letter that stands for one. -/
def digit? (c : Char) : Option Nat :=
  if c.isDigit then some (c.toNat - '0'.toNat)
  else if c.isLower then some (c.toNat - 'a'.toNat + 10)
  else if c.isUpper then some (c.toNat - 'A'.toNat + 10)
  else none

/-- The number that digits of a base stand for, after those that gave `n`. An underscore may stand
before a digit; `parted` says whether one may come first. -/
def digits? (base : Nat) (n : Nat) (parted : Bool) : List Char → Option Nat
  | [] => some n
  | '_' :: c :: cs =>
    if parted then (digit? c).bind fun d =>
      if d < base then digits? base (base * n + d) true cs else none
    else none
  | c :: cs => (digit? c).bind fun d =>
    if d < base then digits? base (base * n + d) true cs else none

/-- A number without a sign. `0x`, `0o` and `0b` say the base, and a leading zero says that it is
eight. -/
def magnitude? : List Char → Option Nat
  | [] => none
  | '0' :: c :: d :: cs =>
    match c.toLower with
    | 'x' => digits? 16 0 true (d :: cs)
    | 'o' => digits? 8 0 true (d :: cs)
    | 'b' => digits? 2 0 true (d :: cs)
    | _ => digits? 8 0 true (c :: d :: cs)
  | '0' :: cs => digits? 8 0 true cs
  | cs => digits? 10 0 false cs

end Metamath
