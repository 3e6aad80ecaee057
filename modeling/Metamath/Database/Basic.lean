import Metamath.Expr

/-!
# The database

A `Database` holds everything declared so far (constants, variables, hypotheses, assertions, the
latest first) and the stack of open scopes. Closing a scope ends the visibility of what it holds and
deletes no record. The outermost scope is always open.
-/

namespace Metamath

/-! ## Records -/

/-- A hypothesis: a floating one gives a variable its typecode, an essential one is assumed. -/
inductive Hypothesis where
  | floating (label : Label) (typecode v : Symbol)
  | essential (label : Label) (expr : Expr)
deriving DecidableEq, Repr

namespace Hypothesis

/-- The name of the hypothesis. -/
def label : Hypothesis → Label
  | floating label .. => label
  | essential label _ => label

/-- What the hypothesis states. -/
def expr : Hypothesis → Expr
  | floating _ typecode v => [typecode, v]
  | essential _ e => e

/-- Whether the hypothesis is floating. -/
def isFloating : Hypothesis → Bool
  | floating .. => true
  | essential .. => false

/-- The variable that a floating hypothesis is about. -/
def subject? : Hypothesis → Option Symbol
  | floating _ _ v => some v
  | essential .. => none

end Hypothesis

/-- Axiomatic assertions are taken as true, provable ones have a proof. -/
inductive AssertionKind where
  | axiomatic
  | provable
deriving DecidableEq, Repr

/-- The keyword of the statement that declares such an assertion. -/
def AssertionKind.keyword : AssertionKind → String
  | axiomatic => "$a"
  | provable => "$p"

/-- Two variables that must be replaced by expressions without a common variable. -/
structure DisjointPair where
  x : Symbol
  y : Symbol
deriving DecidableEq, Repr

/-- The pair of two variables, the lesser first. -/
def DisjointPair.of (a b : Symbol) : DisjointPair :=
  if b < a then ⟨b, a⟩ else ⟨a, b⟩

/-- An assertion with its mandatory hypotheses and disjoint pairs. -/
structure Assertion where
  label : Label
  kind : AssertionKind
  hypotheses : List Label
  disjoint : List DisjointPair
  expr : Expr
deriving DecidableEq, Repr

/-! ## Scopes -/

/-- What a block holds: variables, hypotheses in order, and the groups of its `$d` statements in
order, each sorted. -/
structure Scope where
  vars : List Symbol := []
  hypotheses : List Hypothesis := []
  disjoint : List (List Symbol) := []
  /-- The table of floating hypotheses: the label of the one that a variable has in the block. -/
  floating : List (Symbol × Label) := []
deriving DecidableEq, Repr

/-- All that is declared, and the open scopes. -/
structure Database where
  constants : List Symbol := []
  /-- Every symbol that ever was a variable. -/
  vars : List Symbol := []
  hypotheses : List Hypothesis := []
  assertions : List Assertion := []
  /-- The innermost open scope. -/
  scope : Scope := {}
  /-- The other open scopes, from the innermost to the outermost. -/
  enclosing : List Scope := []
deriving DecidableEq, Repr

namespace Database

/-! ## Queries -/

/-- The open scopes, from the outermost to the innermost. -/
def scopes (db : Database) : List Scope :=
  (db.scope :: db.enclosing).reverse

/-- The number of open scopes. -/
def depth (db : Database) : Nat :=
  db.enclosing.length + 1

/-- Whether a symbol is a constant. -/
def isConstant (db : Database) (s : Symbol) : Bool :=
  db.constants.contains s

/-- Whether a symbol ever was a variable. -/
def isVariable (db : Database) (s : Symbol) : Bool :=
  db.vars.contains s

/-- Whether a symbol is a variable of an open scope. -/
def isActiveVariable (db : Database) (s : Symbol) : Bool :=
  db.scopes.any fun scope => scope.vars.contains s

/-- The hypotheses of the open scopes, in the order of declaration. -/
def activeHypotheses (db : Database) : List Hypothesis :=
  db.scopes.flatMap Scope.hypotheses

/-- The hypothesis of an open scope with a label. -/
def activeHypothesis? (db : Database) (l : Label) : Option Hypothesis :=
  db.activeHypotheses.find? (·.label == l)

/-- The label of the active floating hypothesis of a variable. The innermost scope comes first. -/
def floating? (db : Database) (v : Symbol) : Option Label :=
  (db.scope :: db.enclosing).findSome? fun scope => scope.floating.lookup v

/-- Whether an active `$d` statement names both variables. No variable is disjoint from itself. -/
def isDisjoint (db : Database) (x y : Symbol) : Bool :=
  x != y && db.scopes.any fun scope =>
    scope.disjoint.any fun group => group.contains x && group.contains y

/-- The hypothesis with a label, active or not. -/
def hypothesis? (db : Database) (l : Label) : Option Hypothesis :=
  db.hypotheses.find? (·.label == l)

/-- The assertion with a label. -/
def assertion? (db : Database) (l : Label) : Option Assertion :=
  db.assertions.find? (·.label == l)

/-- Whether a hypothesis or an assertion has the label. -/
def isLabelUsed (db : Database) (l : Label) : Bool :=
  (db.hypothesis? l).isSome || (db.assertion? l).isSome

/-- The variables of an expression, each once, in the order of first appearance. -/
def variablesOf (db : Database) (e : Expr) : List Symbol :=
  (e.filter db.isVariable).eraseDups

end Database

/-! ## Counts -/

/-- The number of records of each sort. -/
structure Stats where
  constants : Int := 0
  vars : Int := 0
  floating : Int := 0
  essential : Int := 0
  axioms : Int := 0
  theorems : Int := 0
  incomplete : Int := 0
deriving DecidableEq, Repr

/-- The counts of a database. Incomplete proofs are not recorded in it. -/
def Database.stats (db : Database) : Stats where
  constants := db.constants.length
  vars := db.vars.length
  floating := (db.hypotheses.filter (·.isFloating)).length
  essential := (db.hypotheses.filter (!·.isFloating)).length
  axioms := (db.assertions.filter (·.kind == .axiomatic)).length
  theorems := (db.assertions.filter (·.kind == .provable)).length

end Metamath
