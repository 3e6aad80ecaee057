import Metamath.Number.Integer

/-!
# What plain scalars mean

A plain scalar is a text, unless it is written like nothing at all, a truth value, a number or a
moment. `Meaning.of` tells which.
-/

namespace Metamath.Yaml

/-- What a plain scalar stands for. -/
inductive Meaning where
  | null
  | boolean
  | integer
  | float
  | timestamp
  | text
deriving DecidableEq, Repr

/-- The tag of what has a meaning. -/
def Meaning.tag : Meaning → String
  | null => "!!null"
  | boolean => "!!bool"
  | integer => "!!int"
  | float => "!!float"
  | timestamp => "!!timestamp"
  | text => "!!str"

/-- What the words mean that are no texts. -/
def wordMeaning? (s : String) : Option Meaning :=
  if ["", "~", "null", "Null", "NULL"].contains s then some .null
  else if ["true", "True", "TRUE", "false", "False", "FALSE"].contains s then some .boolean
  else if [".nan", ".NaN", ".NAN", ".inf", ".Inf", ".INF", "+.inf", "+.Inf", "+.INF", "-.inf",
    "-.Inf", "-.INF"].contains s then some .float
  else none

/-! ## Integers -/

/-- Whether a magnitude fits into 64 bits, with a sign or without. -/
def fits (sign : Option Char) (n : Nat) : Bool :=
  match sign with
  | some '-' => n ≤ 0x8000000000000000
  | some _ => n < 0x8000000000000000
  | none => n < 0x10000000000000000

/-- The sign in front of some characters, and the rest. -/
def sign? : List Char → Option Char × List Char
  | '+' :: cs => (some '+', cs)
  | '-' :: cs => (some '-', cs)
  | cs => (none, cs)

/-- Whether characters are an integer, whose base a mark like `0x` may say. -/
def isInteger (cs : List Char) : Bool :=
  let (sign, digits) := sign? cs
  (magnitude? digits).any (fits sign)

/-- Whether characters are an integer of a base. -/
def isBased (base : Nat) (cs : List Char) : Bool :=
  let (sign, digits) := sign? cs
  !digits.isEmpty && (digits? base 0 false digits).any (fits sign)

/-- Whether characters are an integer after a mark for base two or eight. A sign may follow the
mark, unless there is a minus before it. -/
def isMarked : List Char → Bool
  | '0' :: 'b' :: cs => isBased 2 cs
  | '-' :: '0' :: 'b' :: cs => isBased 2 ('-' :: cs)
  | '0' :: 'o' :: cs => isBased 8 cs
  | '-' :: '0' :: 'o' :: cs => isBased 8 ('-' :: cs)
  | _ => false

/-! ## Decimals -/

/-- A decimal: the number that its digits stand for, and the power of ten that it is taken by. -/
structure Decimal where
  digits : Nat
  power : Int
deriving DecidableEq, Repr

/-- The number that digits stand for. -/
def digitsValue (cs : List Char) : Nat :=
  (digits? 10 0 false cs).getD 0

/-- The exponent that digits stand for. From ten thousand on, further digits are passed over. -/
def exponentValue (cs : List Char) : Nat :=
  cs.foldl (fun n c => if n < 10000 then 10 * n + (c.toNat - '0'.toNat) else n) 0

/-- The exponent at the end of a decimal, which may be missing. -/
def exponent? : List Char → Option Int
  | [] => some 0
  | c :: cs =>
    let (sign, digits) := sign? cs
    if (c == 'e' || c == 'E') && !digits.isEmpty && digits.all Char.isDigit then
      let n : Int := exponentValue digits
      some (if sign == some '-' then -n else n)
    else none

/-- The decimal that characters are, after a sign. -/
def decimal? (cs : List Char) : Option Decimal :=
  let whole := cs.takeWhile Char.isDigit
  let (fraction, rest) := match cs.dropWhile Char.isDigit with
    | '.' :: rest => (rest.takeWhile Char.isDigit, rest.dropWhile Char.isDigit)
    | rest => ([], rest)
  if whole.isEmpty && fraction.isEmpty then none
  else (exponent? rest).map fun e => ⟨digitsValue (whole ++ fraction), e - fraction.length⟩

/-- The least number that is too great for 64 bits of a binary fraction. -/
def floatBound : Nat :=
  (Nat.pow 2 54 - 1) * Nat.pow 2 970

/-- Whether a decimal is not too great for 64 bits of a binary fraction. -/
def Decimal.isFinite (d : Decimal) : Bool :=
  let size : Int := (Nat.toDigits 10 d.digits).length + d.power
  d.digits == 0 || size < 300 ||
    (size < 320 && d.digits * Nat.pow 10 d.power.toNat < floatBound * Nat.pow 10 (-d.power).toNat)

/-- Whether characters are a decimal that is not too great. -/
def isDecimal (cs : List Char) : Bool :=
  (decimal? (sign? cs).2).any Decimal.isFinite

/-- Whether all underscores stand between digits. -/
def partsDigits : List Char → Bool
  | a :: '_' :: b :: cs => a.isDigit && b.isDigit && partsDigits (b :: cs)
  | '_' :: _ => false
  | [_, '_'] => false
  | _ :: cs => partsDigits cs
  | [] => true

/-! ## Moments -/

/-- A number of one or two digits, and the rest. -/
def shortNumber? : List Char → Option (Nat × List Char)
  | a :: b :: cs =>
    if a.isDigit then
      if b.isDigit then some (digitsValue [a, b], cs) else some (digitsValue [a], b :: cs)
    else none
  | [a] => if a.isDigit then some (digitsValue [a], []) else none
  | [] => none

/-- A number of one or two digits below a bound, and the rest. -/
def below? (bound : Nat) (cs : List Char) : Option (Nat × List Char) :=
  (shortNumber? cs).filter fun p => p.1 < bound

/-- What follows a sign. -/
def after? (sign : Char) : List Char → Option (List Char)
  | c :: cs => if c == sign then some cs else none
  | [] => none

/-- How many days a month has. -/
def daysIn (year month : Nat) : Nat :=
  if month = 2 then if year % 4 = 0 ∧ (year % 100 ≠ 0 ∨ year % 400 = 0) then 29 else 28
  else if [4, 6, 9, 11].contains month then 30
  else 31

/-- What follows a date. The year has four digits, and the day is one of its month. -/
def afterDate? (cs : List Char) : Option (List Char) := do
  let year := cs.takeWhile Char.isDigit
  if year.length ≠ 4 then none
  let (month, cs) ← below? 13 (← after? '-' (cs.drop 4))
  let (day, cs) ← shortNumber? (← after? '-' cs)
  if 1 ≤ month ∧ 1 ≤ day ∧ day ≤ daysIn (digitsValue year) month then some cs else none

/-- What follows a time of day. The seconds may have a fraction. -/
def afterTime? (cs : List Char) : Option (List Char) := do
  let (_, cs) ← below? 24 cs
  let (_, cs) ← below? 60 (← after? ':' cs)
  let (_, cs) ← below? 60 (← after? ':' cs)
  match cs with
  | c :: d :: rest =>
    if (c == '.' || c == ',') && d.isDigit then some (rest.dropWhile Char.isDigit) else some cs
  | _ => some cs

/-- Whether characters are a time zone. -/
def isZone : List Char → Bool
  | ['Z'] => true
  | [s, a, b, ':', c, d] =>
    (s == '+' || s == '-') && [a, b, c, d].all Char.isDigit && digitsValue [a, b] ≤ 24 &&
      digitsValue [c, d] ≤ 60
  | _ => false

/-- Whether characters are a moment: a date alone, with a time of day after spaces, or with a time
of day and a time zone after `T`. -/
def isTimestamp (cs : List Char) : Bool :=
  match afterDate? cs with
  | none => false
  | some [] => true
  | some (c :: rest) =>
    if c == ' ' then afterTime? (rest.dropWhile (· == ' ')) == some []
    else (c == 'T' || c == 't') && (afterTime? rest).any isZone

/-! ## Scalars -/

/-- What a plain scalar with a text means. -/
def Meaning.of (s : String) : Meaning :=
  match wordMeaning? s, s.toList with
  | some m, _ => m
  | none, [] => .text
  | none, c :: cs =>
    if c == '.' then
      if partsDigits (c :: cs) && isDecimal ((c :: cs).filter (· ≠ '_')) then .float else .text
    else if c.isDigit || c == '+' || c == '-' then
      let plain := (c :: cs).filter (· ≠ '_')
      if isTimestamp (c :: cs) then .timestamp
      else if isInteger plain then .integer
      else if isDecimal plain then .float
      else if isMarked plain then .integer
      else .text
    else .text

end Metamath.Yaml
