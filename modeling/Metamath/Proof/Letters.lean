import Metamath.Diagnostic.Cause
import Metamath.Text.Bytes

/-!
# The letters of compressed proofs

A compressed proof is a string of letters. `A` to `T` end a number with a digit from 1 to 20, `U` to
`Y` put a digit from 1 to 5 in front of it, `Z` marks the step before it for later use and `?` is an
unknown step. `decodeLetters` reads the string. It computes with words of 64 bits, and before it puts
a digit to a number it makes sure that the result still fits.
-/

namespace Metamath

/-- What a compressed proof says in one place. Numbers count from 1. -/
inductive CompressedStep where
  | number (n : Nat)
  | mark
  | unknown
deriving DecidableEq, Repr

/-- The greatest number that a compressed proof may hold. -/
def maxNumber : Nat := 0x7fffffffffffffff

/-- Reads letters. `high` is the value of the leading digits read so far, and `markable` says
whether a number was just completed. -/
def decodeFrom (high : Int64) (markable : Bool) : Bytes → Except LetterError (List CompressedStep)
  | [] => if high = 0 then .ok [] else .error .unfinishedNumber
  | b :: rest =>
    if 0x41 ≤ b ∧ b ≤ 0x54 then
      let digit := Int64.ofNat (b - 0x41).toNat + 1
      if (Int64.maxValue - digit) / 20 < high then .error .overflow
      else (decodeFrom 0 true rest).map (.number (20 * high + digit).toNatClampNeg :: ·)
    else if 0x55 ≤ b ∧ b ≤ 0x59 then
      let digit := Int64.ofNat (b - 0x54).toNat
      if (Int64.maxValue - digit) / 5 < high then .error .overflow
      else decodeFrom (5 * high + digit) false rest
    else if b = 0x5a then
      if markable then (decodeFrom high false rest).map (.mark :: ·) else .error .strayMark
    else if b = 0x3f then
      if high = 0 then (decodeFrom 0 false rest).map (.unknown :: ·) else .error .unknownInNumber
    else .error (.bogus b)

/-- The steps that a string of letters stands for. -/
def decodeLetters (letters : Bytes) : Except LetterError (List CompressedStep) :=
  decodeFrom 0 false letters

end Metamath
