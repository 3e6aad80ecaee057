import Metamath.Failure
import Metamath.Text.Bytes

/-!
# Tokens, streams and sources

A `Source` is the content of a file as it can be read, a `Stream` the tokens of a text. Both say
how they end: in order, or with a failure that stands where the rest should be.
-/

namespace Metamath

/-- A word of a text and the position of its first character. -/
structure Token where
  text : String
  pos : Position
deriving DecidableEq, Repr, Inhabited

/-- What can be read of a file. With a failure, reading stops after the bytes without reaching
the end of the file. -/
structure Source where
  bytes : Bytes
  failure : Option Failure := none
deriving DecidableEq, Repr

/-- The tokens of a text, in order, and the failure that ends them, if any. -/
structure Stream where
  tokens : List Token
  failure : Option Failure := none
deriving DecidableEq, Repr

namespace Stream

/-- The stream that has no token and fails at once. -/
def fail (f : Failure) : Stream :=
  ⟨[], some f⟩

/-- The stream with one more token in front. -/
def cons (t : Token) (s : Stream) : Stream :=
  { s with tokens := t :: s.tokens }

@[simp] theorem tokens_fail (f : Failure) : (fail f).tokens = [] := rfl

@[simp] theorem failure_fail (f : Failure) : (fail f).failure = some f := rfl

@[simp] theorem tokens_cons (t : Token) (s : Stream) : (s.cons t).tokens = t :: s.tokens := rfl

@[simp] theorem failure_cons (t : Token) (s : Stream) : (s.cons t).failure = s.failure := rfl

/-- The stream whose requests fail after the first `n`. -/
def failAfter (n : Nat) (f : Failure) (s : Stream) : Stream :=
  if n ≤ s.tokens.length then ⟨s.tokens.take n, some f⟩ else s

end Stream

end Metamath
