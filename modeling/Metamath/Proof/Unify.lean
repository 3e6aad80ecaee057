import Metamath.Database.Basic
import Metamath.Diagnostic.Cause

/-!
# Applying an assertion

`unify` matches arguments with the mandatory hypotheses of an assertion. Floating hypotheses bind
their variables, essential ones must agree with their argument after substitution, and the disjoint
pairs must stay disjoint. The conclusion is the assertion after substitution.
-/

namespace Metamath

/-- Matches one argument with a hypothesis and gives the bindings with it. -/
def matchHypothesis (σ : Substitution) (arg : Expr) :
    Hypothesis → Except UnifyError Substitution
  | .floating label typecode v =>
    match arg with
    | [] => .error (.typecode label typecode [])
    | s :: rest =>
      if s = typecode then .ok (σ.bind v rest) else .error (.typecode label typecode (s :: rest))
  | .essential label e =>
    if σ.apply e = arg then .ok σ else .error (.essential label (σ.apply e) arg)

/-- Matches arguments with hypotheses, one by one. -/
def matchHypotheses (db : Database) (σ : Substitution) :
    List Label → List Expr → Except UnifyError Substitution
  | l :: ls, arg :: args =>
    match db.hypothesis? l with
    | none => .error (.hypothesisUndeclared l)
    | some h => do
      let σ ← matchHypothesis σ arg h
      matchHypotheses db σ ls args
  | _, _ => .ok σ

/-- The first two variables that a substitution puts for a disjoint pair though they are not
declared disjoint. -/
def pairViolation? (db : Database) (σ : Substitution) (p : DisjointPair) : Option UnifyError :=
  let xs := db.variablesOf ((σ.get? p.x).getD [])
  let ys := db.variablesOf ((σ.get? p.y).getD [])
  xs.findSome? fun u => ys.findSome? fun v =>
    if db.isDisjoint u v then none else some (.disjoint p.x p.y u v)

/-- Applies an assertion to arguments: the substitution and the conclusion. -/
def unify (db : Database) (a : Assertion) (args : List Expr) :
    Except UnifyError (Substitution × Expr) := do
  if args.length ≠ a.hypotheses.length then
    throw (.argumentCount a.hypotheses.length args.length)
  let σ ← matchHypotheses db [] a.hypotheses args
  match a.disjoint.findSome? (pairViolation? db σ) with
  | some e => throw e
  | none => return (σ, σ.apply a.expr)

end Metamath
