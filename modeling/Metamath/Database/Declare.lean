import Metamath.Database.Frame
import Metamath.Diagnostic.Cause

/-!
# Declarations

The operations that change a database: opening and closing scopes, and declaring constants,
variables, hypotheses, `$d` groups and assertions. Each checks its conditions in a fixed order and
either gives the changed database or names the first condition that fails.
-/

namespace Metamath

/-- Whether a text may be declared as a symbol: `$` is not for symbols. -/
def isMathSymbol (s : String) : Bool :=
  !s.toList.contains '$'

/-- Whether a character may stand in a label. -/
def isLabelChar (c : Char) : Bool :=
  c.isAlphanum || c == '.' || c == '-' || c == '_'

/-- Whether a text is a label: letters, digits, `.`, `-` and `_`, at least one. -/
def isLabel (s : String) : Bool :=
  !s.isEmpty && s.toList.all isLabelChar

namespace Database

/-! ## Scopes -/

/-- Opens a scope. -/
def pushScope (db : Database) : Database :=
  { db with scope := {}, enclosing := db.scope :: db.enclosing }

/-- Closes the innermost scope, unless it is the outermost one. -/
def popScope (db : Database) : Except DeclarationError Database :=
  match db.enclosing with
  | [] => .error .noOpenBlock
  | outer :: rest => .ok { db with scope := outer, enclosing := rest }

/-! ## Symbols -/

/-- Declares a constant, which only the outermost scope may do. -/
def addConstant (db : Database) (s : Symbol) : Except DeclarationError Database :=
  if 1 < db.depth then .error .constantInBlock
  else if !isMathSymbol s then .error (.notAConstant s)
  else if db.isVariable s then .error (.constantIsVariable s)
  else if db.isLabelUsed s then .error (.constantIsLabel s)
  else if db.isConstant s then .error (.constantTaken s)
  else .ok { db with constants := s :: db.constants }

/-- Declares a variable of the innermost scope. A variable whose scope is closed may come again. -/
def addVariable (db : Database) (s : Symbol) : Except DeclarationError Database :=
  if !isMathSymbol s then .error (.notAVariable s)
  else if db.isConstant s then .error (.variableIsConstant s)
  else if db.isLabelUsed s then .error (.variableIsLabel s)
  else if db.isActiveVariable s then .error (.variableTaken s)
  else .ok { db with
    vars := db.vars.insert s
    scope := { db.scope with vars := s :: db.scope.vars } }

/-! ## Hypotheses -/

/-- Whether a label is free: it names nothing, and is no symbol. -/
def checkLabel (db : Database) (l : Label) : Except DeclarationError Unit :=
  if db.isConstant l then .error (.labelIsConstant l)
  else if db.isVariable l then .error (.labelIsVariable l)
  else if db.isLabelUsed l then .error (.labelTaken l)
  else .ok ()

/-- Records a hypothesis in the innermost scope. -/
def addHypothesis (db : Database) (h : Hypothesis) : Database :=
  { db with
    hypotheses := h :: db.hypotheses
    scope := { db.scope with hypotheses := db.scope.hypotheses ++ [h] } }

/-- Enters the floating hypothesis of a variable in the table of the innermost scope. -/
def enterFloating (db : Database) (v : Symbol) (label : Label) : Database :=
  { db with scope := { db.scope with floating := (v, label) :: db.scope.floating } }

/-- Declares the floating hypothesis that gives a variable its typecode. -/
def addFloating (db : Database) (label : Label) (typecode v : Symbol) :
    Except DeclarationError Database := do
  db.checkLabel label
  if !db.isConstant typecode then throw (.typecodeNotConstant "$f" label typecode)
  if !db.isActiveVariable v then throw (.variableInactive label v)
  match db.floating? v with
  | some first => throw (.secondFloating v label first)
  | none => return (db.addHypothesis (.floating label typecode v)).enterFloating v label

/-- Whether a symbol may stand in an expression after the typecode. -/
def isUsable (db : Database) (s : Symbol) : Bool :=
  db.isConstant s || (db.floating? s).isSome

/-- The first symbol that may not stand in an expression, with its index counted from `i`. -/
def firstUnusable? (db : Database) (i : Nat) : Expr → Option (Nat × Symbol)
  | [] => none
  | s :: rest => if db.isUsable s then db.firstUnusable? (i + 1) rest else some (i, s)

/-- Checks the symbols of an expression. The number is the index of the symbol at fault. -/
def checkExpr (db : Database) (stmt : String) (label : Label) :
    Expr → Except (Nat × DeclarationError) Unit
  | [] => .error (0, .emptyExpression stmt label)
  | typecode :: rest =>
    if !db.isConstant typecode then .error (0, .typecodeNotConstant stmt label typecode)
    else match db.firstUnusable? 1 rest with
      | some (i, s) => .error (i, .symbolInactive stmt label s)
      | none => .ok ()

/-- Declares an essential hypothesis. -/
def addEssential (db : Database) (label : Label) (e : Expr) : Except DeclarationError Database := do
  db.checkLabel label
  (db.checkExpr "$e" label e).mapError Prod.snd
  return db.addHypothesis (.essential label e)

/-! ## Disjoint variables -/

/-- Checks the members of a `$d` group, of which those in `before` stand in front. -/
def checkGroup (db : Database) (before : List Symbol) : List Symbol → Except DeclarationError Unit
  | [] => if before.length < 2 then .error .disjointTooFew else .ok ()
  | v :: rest =>
    if !db.isActiveVariable v then .error (.disjointInactive v)
    else if before.contains v then .error (.disjointRepeated v)
    else db.checkGroup (v :: before) rest

/-- Declares that active variables are disjoint from one another. -/
def addDisjoint (db : Database) (vs : List Symbol) : Except DeclarationError Database := do
  db.checkGroup [] vs
  return { db with scope := { db.scope with disjoint := db.scope.disjoint ++ [sortSymbols vs] } }

/-! ## Assertions -/

/-- Declares an assertion and gives its record as well. -/
def addAssertion (db : Database) (label : Label) (kind : AssertionKind) (e : Expr) :
    Except DeclarationError (Database × Assertion) := do
  db.checkLabel label
  (db.checkExpr kind.keyword label e).mapError Prod.snd
  let a := db.frame label kind e
  return ({ db with assertions := a :: db.assertions }, a)

end Database

end Metamath
