/-!
# Fractions of 53 significant bits

`Fraction.round` gives the nearest fraction that has 53 significant bits; of two that are equally
near, it gives the one whose last bit is zero. A quotient or a product of such fractions is rounded
again.
-/

namespace Metamath

/-- A fraction of natural numbers. -/
structure Fraction where
  num : Nat
  den : Nat
deriving DecidableEq, Repr

namespace Fraction

/-- A natural number as a fraction. -/
def ofNat (n : Nat) : Fraction :=
  ⟨n, 1⟩

/-- The product of two fractions. -/
def mul (x y : Fraction) : Fraction :=
  ⟨x.num * y.num, x.den * y.den⟩

/-- The quotient of two fractions. -/
def div (x y : Fraction) : Fraction :=
  ⟨x.num * y.den, x.den * y.num⟩

/-- The whole part of a fraction. -/
def floor (x : Fraction) : Nat :=
  x.num / x.den

/-- The whole number nearest to a fraction, or the even one of two. -/
def nearest (x : Fraction) : Nat :=
  let rest := 2 * (x.num % x.den)
  if x.den < rest ∨ (rest = x.den ∧ x.floor % 2 = 1) then x.floor + 1 else x.floor

/-- A fraction rounded to 53 significant bits. -/
def round (x : Fraction) : Fraction :=
  let up := 52 + x.den.log2 - x.num.log2
  let down := Nat.pow 2 (x.num.log2 - (52 + x.den.log2))
  let scaled (up : Nat) : Fraction := ⟨x.num * Nat.pow 2 up, x.den * down⟩
  let up := if (scaled up).floor < Nat.pow 2 52 then up + 1 else up
  ⟨(scaled up).nearest * down, Nat.pow 2 up⟩

end Fraction

end Metamath
