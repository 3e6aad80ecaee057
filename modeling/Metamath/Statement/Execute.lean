import Metamath.Database.Declare
import Metamath.Proof.Replay
import Metamath.Statement.Basic

/-!
# Executing statements

`Session.execute` carries out one statement: it declares what the statement declares and checks
the proof that it holds. A failing statement leaves what it did before it failed. `run` carries out
the statements of a stream in order, up to the first failure.
-/

namespace Metamath

/-! ## Sessions -/

/-- What happened in a run. -/
inductive Event where
  | scopeOpened (depth : Nat) (pos : Position)
  | scopeClosed (depth : Nat) (pos : Position)
  | axiomRecorded (label : Label)
  | theoremVerified (label : Label)
  | incompleteProof (label : Label) (pos : Position)
deriving DecidableEq, Repr

/-- The warning that an event gives rise to. -/
def Event.warning? : Event → Option Diagnostic
  | incompleteProof label pos => some { cause := .incompleteProof label, stmt := "$p", label, pos }
  | _ => none

/-- The state of a run: the database, the positions of the unclosed `${`, the innermost first, and
what happened so far. -/
structure Session where
  db : Database := {}
  openings : List Position := []
  events : Array Event := #[]
deriving DecidableEq, Repr

/-- What a statement comes to: the new state, and the failure if it failed. -/
abbrev Step := Session × Option Failure

/-- A diagnostic as a failure. -/
def Cause.failure (cause : Cause) (stmt : String) (label : Label) (pos : Position) : Failure :=
  .diagnostic { cause, stmt, label, pos }

/-- Whether a token holds only letters of a compressed proof. -/
def isLetterChunk (s : String) : Bool :=
  s.toList.all fun c => c.isUpper || c == '?'

namespace Session

/-- Records an event. -/
def log (s : Session) (e : Event) : Session :=
  { s with events := s.events.push e }

/-! ## Declarations -/

/-- Declares symbols one by one, up to the first that cannot be. -/
def declareAll (declare : Database → Symbol → Except DeclarationError Database) (stmt : String)
    (s : Session) : List Token → Step
  | [] => (s, none)
  | t :: ts =>
    match declare s.db t.text with
    | .error e => (s, (Cause.declaration e).failure stmt "" t.pos)
    | .ok db => declareAll declare stmt { s with db } ts

/-- Carries out a `$c` or `$v` statement. -/
def executeSymbols (declare : Database → Symbol → Except DeclarationError Database) (stmt : String)
    (ending : Option Failure) (s : Session) (keyword : Token) (symbols : Segment) : Step :=
  match symbols.stop with
  | none =>
    (s, ending.getD ((Cause.statement (.unterminated stmt)).failure stmt "" keyword.pos))
  | some _ =>
    if symbols.items.isEmpty then
      (s, (Cause.statement (.emptyDeclaration stmt)).failure stmt "" keyword.pos)
    else s.declareAll declare stmt symbols.items

/-- Carries out a `$d` statement. -/
def executeDisjoint (ending : Option Failure) (s : Session) (keyword : Token)
    (symbols : Segment) : Step :=
  match symbols.stop with
  | none =>
    (s, ending.getD ((Cause.statement (.unterminated "$d")).failure "$d" "" keyword.pos))
  | some _ =>
    match s.db.addDisjoint (symbols.items.map Token.text) with
    | .error e => (s, (Cause.declaration e).failure "$d" "" keyword.pos)
    | .ok db => ({ s with db }, none)

/-- Opens a block. -/
def executeOpen (s : Session) (keyword : Token) : Step :=
  let db := s.db.pushScope
  let opened := { s with db, openings := keyword.pos :: s.openings }
  (opened.log (.scopeOpened db.depth keyword.pos), none)

/-- Closes a block. -/
def executeClose (s : Session) (keyword : Token) : Step :=
  match s.db.popScope with
  | .error e => (s, (Cause.declaration e).failure "$\x7d" "" keyword.pos)
  | .ok db =>
    ({ s with db, openings := s.openings.tail }.log (.scopeClosed db.depth keyword.pos), none)

/-! ## Labelled statements -/

/-- The failure of a labelled statement that is cut short. -/
def unfinished (ending : Option Failure) (stmt : String) (label : Token) : Failure :=
  ending.getD ((Cause.statement (.unfinished stmt label.text)).failure stmt label.text label.pos)

/-- Carries out a `$f` statement. -/
def executeFloating (ending : Option Failure) (s : Session) (label : Token) :
    List Token → Step
  | [typecode, v, stop] =>
    if stop.text ≠ "$." then
      let cause := Cause.statement (.floatingNotEnded label.text stop.text)
      (s, cause.failure "$f" label.text stop.pos)
    else
      match s.db.addFloating label.text typecode.text v.text with
      | .error e =>
        let pos :=
          if e.kind = .undeclaredSymbol ∧ !s.db.isConstant typecode.text then typecode.pos
          else v.pos
        (s, (Cause.declaration e).failure "$f" label.text pos)
      | .ok db => ({ s with db }, none)
  | _ => (s, unfinished ending "$f" label)

/-- The expression in a segment, if it is complete and all its symbols may be used. -/
def checkedExpr (ending : Option Failure) (s : Session) (stmt : String) (label : Token)
    (body : Segment) : Except Failure Expr :=
  match body.stop with
  | none => .error (unfinished ending stmt label)
  | some _ =>
    match s.db.checkExpr stmt label.text (body.items.map Token.text) with
    | .error (i, e) =>
      let pos := (body.items[i]?.map Token.pos).getD label.pos
      .error ((Cause.declaration e).failure stmt label.text pos)
    | .ok () => .ok (body.items.map Token.text)

/-- Carries out a `$e` statement. -/
def executeEssential (ending : Option Failure) (s : Session) (label : Token) (body : Segment) :
    Step :=
  match s.checkedExpr ending "$e" label body with
  | .error f => (s, f)
  | .ok e =>
    match s.db.addEssential label.text e with
    | .error e => (s, (Cause.declaration e).failure "$e" label.text label.pos)
    | .ok db => ({ s with db }, none)

/-- Carries out a `$a` statement. -/
def executeAxiomatic (ending : Option Failure) (s : Session) (label : Token) (body : Segment) :
    Step :=
  match s.checkedExpr ending "$a" label body with
  | .error f => (s, f)
  | .ok e =>
    match s.db.addAssertion label.text .axiomatic e with
    | .error e => (s, (Cause.declaration e).failure "$a" label.text label.pos)
    | .ok (db, _) => ({ s with db }.log (.axiomRecorded label.text), none)

/-! ## Proofs -/

/-- What is wrong with a label in a proof before any step is taken. -/
def labelFault? (s : Session) (thm : Assertion) (compressed : Bool) (l : Label) : Option Cause :=
  if l = "?" ∧ !compressed then none
  else if l = thm.label then some (.proof thm.label .selfReference)
  else if compressed ∧ thm.hypotheses.contains l then
    some (.statement (.mandatoryInLabels thm.label l))
  else if (s.db.assertion? l).isSome ∨ (s.db.activeHypothesis? l).isSome then none
  else some (.proof thm.label (.inactiveStep l))

/-- The first token at fault among some of a proof. -/
def firstFault? (thm : Assertion) (fault? : Label → Option Cause) (ts : List Token) :
    Option Failure :=
  ts.findSome? fun t => (fault? t.text).map fun cause => cause.failure "$p" thm.label t.pos

/-- Closes a `$p` statement with the verdict on its proof. The step at which the proof fails has
the position `place` gives it. -/
def conclude (s : Session) (label : Token) (place : Nat → Position) (v : Verdict) : Step :=
  match v.failure with
  | some (i, e) => (s, (Cause.proof label.text e).failure "$p" label.text (place i))
  | none =>
    if v.incomplete then (s.log (.incompleteProof label.text label.pos), none)
    else (s.log (.theoremVerified label.text), none)

/-- Checks the proof of a theorem that was just declared. -/
def executeProof (ending : Option Failure) (s : Session) (label : Token) (thm : Assertion) :
    ProofText → Step
  | .missing => (s, unfinished ending "$p" label)
  | .normal steps =>
    match firstFault? thm (s.labelFault? thm false) steps.items, steps.stop with
    | some f, _ => (s, f)
    | none, none => (s, unfinished ending "$p" label)
    | none, some stop =>
      s.conclude label (fun i => (steps.items[i]?.getD stop).pos)
        (checkNormal s.db thm (steps.items.map Token.text))
  | .compressed _ labels letters =>
    match firstFault? thm (s.labelFault? thm true) labels.items, labels.stop with
    | some f, _ => (s, f)
    | none, none => (s, unfinished ending "$p" label)
    | none, some _ =>
      let fault? l := if isLetterChunk l then none else some (.statement (.bogusLetters label.text))
      match firstFault? thm fault? letters.items, letters.stop with
      | some f, _ => (s, f)
      | none, none => (s, unfinished ending "$p" label)
      | none, some stop =>
        s.conclude label (fun _ => (letters.items.head?.getD stop).pos)
          (checkCompressed s.db thm (labels.items.map Token.text)
            (letters.items.flatMap fun t => utf8 t.text))

/-- Carries out a `$p` statement. The theorem is declared before its proof is looked at. -/
def executeProvable (ending : Option Failure) (s : Session) (label : Token) (body : Segment)
    (proof : ProofText) : Step :=
  match s.checkedExpr ending "$p" label body with
  | .error f => (s, f)
  | .ok e =>
    match s.db.addAssertion label.text .provable e with
    | .error e => (s, (Cause.declaration e).failure "$p" label.text label.pos)
    | .ok (db, thm) => executeProof ending { s with db } label thm proof

/-! ## Statements -/

/-- Carries out what follows a label. -/
def executeBody (ending : Option Failure) (s : Session) (label : Token) : Body → Step
  | .missing =>
    (s, ending.getD
      ((Cause.statement (.unfinishedLabel label.text)).failure "" label.text label.pos))
  | .unknown keyword =>
    (s, (Cause.statement (.unexpectedKeyword keyword.text label.text)).failure "" label.text
      keyword.pos)
  | .floating _ fields => s.executeFloating ending label fields
  | .essential _ expr => s.executeEssential ending label expr
  | .axiomatic _ expr => s.executeAxiomatic ending label expr
  | .provable _ expr proof => s.executeProvable ending label expr proof

/-- Carries out a statement. `ending` is the failure at the end of the tokens, if there is one:
a statement that is cut short fails with it. -/
def execute (ending : Option Failure) (s : Session) : Statement → Step
  | .constants keyword symbols =>
    s.executeSymbols Database.addConstant "$c" ending keyword symbols
  | .vars keyword symbols =>
    s.executeSymbols Database.addVariable "$v" ending keyword symbols
  | .disjoint keyword symbols => s.executeDisjoint ending keyword symbols
  | .openBlock keyword => s.executeOpen keyword
  | .closeBlock keyword => s.executeClose keyword
  | .labelled label body =>
    if !isLabel label.text then
      (s, (Cause.statement (.unexpectedToken label.text)).failure "" "" label.pos)
    else
      match s.db.checkLabel label.text with
      | .error e => (s, (Cause.declaration e).failure "" label.text label.pos)
      | .ok () => s.executeBody ending label body

end Session

/-! ## Runs -/

/-- An interruption, noticed before the first statement at which that many tokens are taken. -/
structure Interrupt where
  cause : Interruption
  after : Nat := 0
deriving DecidableEq, Repr

/-- The failure of a run that is interrupted when some tokens are taken. -/
def interruption? (interrupt : Option Interrupt) (taken : Nat) : Option Failure :=
  match interrupt with
  | some i => if i.after ≤ taken then some (.interrupted i.cause) else none
  | none => none

/-- Ends a run: no failure may end the tokens, and no block may be open. -/
def Session.close (ending : Option Failure) (s : Session) : Step :=
  match ending, s.openings with
  | some f, _ => (s, some f)
  | none, [] => (s, none)
  | none, pos :: _ => (s, (Cause.statement .unclosedBlock).failure "$\x7b" "" pos)

/-- Carries out statements after `taken` tokens, up to the first failure. -/
def runFrom (interrupt : Option Interrupt) (ending : Option Failure) (s : Session) (taken : Nat) :
    List Statement → Step
  | [] =>
    match interruption? interrupt taken with
    | some f => (s, some f)
    | none => s.close ending
  | st :: rest =>
    match interruption? interrupt taken with
    | some f => (s, some f)
    | none =>
      match s.execute ending st with
      | (s, some f) => (s, some f)
      | (s, none) => runFrom interrupt ending s (taken + st.tokens.length) rest

/-- What a run comes to. -/
structure Outcome where
  session : Session
  failure : Option Failure
deriving DecidableEq, Repr

/-- Reads a database from a stream of tokens and checks it. -/
def run (interrupt : Option Interrupt) (stream : Stream) : Outcome :=
  let (session, failure) := runFrom interrupt stream.failure {} 0 (statements stream.tokens)
  { session, failure }

namespace Outcome

/-- The database as far as it was read. -/
def db (o : Outcome) : Database :=
  o.session.db

/-- The warnings, in the order of the statements. -/
def warnings (o : Outcome) : List Diagnostic :=
  o.session.events.toList.filterMap Event.warning?

/-- The counts of the database, and of the incomplete proofs. -/
def stats (o : Outcome) : Stats :=
  { o.db.stats with incomplete := o.warnings.length }

end Outcome

end Metamath
