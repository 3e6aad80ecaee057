/-!
# Expressions and substitutions

An expression is a flat sequence of symbols, the first of which is its typecode. A substitution
replaces variables by sequences of symbols: `Substitution.apply` splices them in place.
-/

namespace Metamath

/-- A math symbol. -/
abbrev Symbol := String

/-- The name of a hypothesis or an assertion. -/
abbrev Label := String

/-- A sequence of symbols. -/
abbrev Expr := List Symbol

/-- The symbols with single spaces between them. -/
def Expr.text (e : Expr) : String :=
  " ".intercalate e

/-- Bindings of variables to sequences of symbols. The first binding of a variable counts. -/
abbrev Substitution := List (Symbol × Expr)

namespace Substitution

/-- What a variable is bound to. -/
def get? (σ : Substitution) (v : Symbol) : Option Expr :=
  σ.lookup v

/-- Binds a variable, whatever it was bound to before. -/
def bind (σ : Substitution) (v : Symbol) (e : Expr) : Substitution :=
  (v, e) :: σ.filter (·.1 != v)

/-- What stands for a symbol after substitution: a symbol without a binding stands for itself. -/
def image (σ : Substitution) (s : Symbol) : Expr :=
  (σ.get? s).getD [s]

/-- Replaces every bound symbol of an expression by what it is bound to. -/
def apply (σ : Substitution) (e : Expr) : Expr :=
  e.flatMap σ.image

@[simp] theorem apply_nil (σ : Substitution) : σ.apply [] = [] := rfl

@[simp] theorem apply_cons (σ : Substitution) (s : Symbol) (e : Expr) :
    σ.apply (s :: e) = σ.image s ++ σ.apply e := by
  simp [apply]

@[simp] theorem apply_append (σ : Substitution) (e f : Expr) :
    σ.apply (e ++ f) = σ.apply e ++ σ.apply f := by
  simp [apply]

@[simp] theorem get?_bind_self (σ : Substitution) (v : Symbol) (e : Expr) :
    (σ.bind v e).get? v = some e := by
  simp [bind, get?]

end Substitution

end Metamath
