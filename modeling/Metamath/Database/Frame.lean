import Metamath.Database.Basic

/-!
# Mandatory frames

The frame of an assertion is what its use has to respect: the active hypotheses that bear on it
(`mandatoryHypotheses`) and the pairs of variables that must stay disjoint (`mandatoryPairs`).
Both depend only on the variables in use: those of the assertion and of the active essential
hypotheses.
-/

namespace Metamath

/-- Puts a symbol into its place among sorted ones. -/
def insertSorted (s : Symbol) : List Symbol → List Symbol
  | [] => [s]
  | t :: rest => if t < s then t :: insertSorted s rest else s :: t :: rest

/-- The symbols in increasing order. -/
def sortSymbols (l : List Symbol) : List Symbol :=
  l.foldr insertSorted []

/-- All pairs of an earlier and a later member of a list, in order. -/
def pairsOf : List Symbol → List DisjointPair
  | [] => []
  | x :: rest => rest.map (DisjointPair.mk x) ++ pairsOf rest

namespace Database

/-- The expressions of the active essential hypotheses. -/
def essentialExprs (db : Database) : List Expr :=
  (db.activeHypotheses.filter (!·.isFloating)).map Hypothesis.expr

/-- The variables in use: those of the expression and of the active essential hypotheses. -/
def mandatoryVariables (db : Database) (e : Expr) : List Symbol :=
  (e :: db.essentialExprs).flatten.filter db.isVariable

/-- The hypotheses that an assertion needs: every active essential one, and the floating ones of
the variables in use. -/
def mandatoryHypotheses (db : Database) (used : List Symbol) : List Hypothesis :=
  db.activeHypotheses.filter fun
    | .floating _ _ v => used.contains v
    | .essential .. => true

/-- The pairs of used variables that an active `$d` statement names together, each once. -/
def mandatoryPairs (db : Database) (used : List Symbol) : List DisjointPair :=
  let groups := db.scopes.flatMap Scope.disjoint
  (groups.flatMap fun group => pairsOf (group.filter used.contains)).eraseDups

/-- The assertion of an expression, with its frame. -/
def frame (db : Database) (label : Label) (kind : AssertionKind) (e : Expr) : Assertion :=
  let used := db.mandatoryVariables e
  { label, kind, expr := e
    hypotheses := (db.mandatoryHypotheses used).map Hypothesis.label
    disjoint := db.mandatoryPairs used }

end Database

end Metamath
