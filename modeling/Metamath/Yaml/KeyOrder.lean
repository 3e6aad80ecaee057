import Metamath.Text.Letter

/-!
# The order of keys

The keys of a mapping are written in an order that compares numbers within them by their value and
puts other signs before letters.
-/

namespace Metamath.Yaml

/-- The number that digits stand for, after those that gave `n`. Digits of all scripts count by the
distance of their code from zero, and the number has 64 bits. -/
def runValue (n : Int) (digits : List Char) : Int :=
  digits.foldl (fun n c => (10 * n + (c.toNat - '0'.toNat)).bmod 0x10000000000000000) n

/-- Whether the digits just before, the last first, hold one that is not zero. -/
def hasNonzero (before : List Char) : Bool :=
  (before.takeWhile Text.isDigit).any (· ≠ '0')

/-- Whether one key comes before another. `before` is what the keys have in common, the last
character first. After a digit the key that goes on with a letter comes first, and otherwise the
other one does. -/
def keyLess (before : List Char) : List Char → List Char → Bool
  | [], bs => !bs.isEmpty
  | _ :: _, [] => false
  | a :: as, b :: bs =>
    if a = b then keyLess (a :: before) as bs
    else if Text.isLetter a && Text.isLetter b then a < b
    else if Text.isLetter a || Text.isLetter b then
      if before.head?.any Text.isDigit then Text.isLetter a else Text.isLetter b
    else
      let start := if (a == '0' || b == '0') && hasNonzero before then 1 else 0
      let first := (a :: as).takeWhile Text.isDigit
      let second := (b :: bs).takeWhile Text.isDigit
      let m := runValue start first
      let n := runValue start second
      if m ≠ n then m < n
      else if first.length ≠ second.length then first.length < second.length
      else a < b

/-- The keys in the order in which they are written. -/
def sortKeys (keys : List String) : List String :=
  keys.mergeSort fun a b => !keyLess [] b.toList a.toList

end Metamath.Yaml
