import Metamath.Proof.Letters
import Metamath.Proof.Unify

/-!
# Replaying proofs

A proof is replayed on a stack of expressions. A hypothesis pushes what it states, an assertion
takes its arguments off the stack and pushes its conclusion, and `?` pushes an item that nothing is
known about. At the end the statement of the theorem must be the only item, unless an unknown step
made the proof incomplete. `checkNormal` and `checkCompressed` do this for the two formats of
proofs.
-/

namespace Metamath

/-- A proof in progress: the stack, the top first, with `none` for an unknown item. -/
structure Replay where
  stack : List (Option Expr) := []
  /-- Whether a step was unknown. -/
  incomplete : Bool := false
deriving DecidableEq, Repr

/-- The items of a list in which every item is known. -/
def allKnown? {α : Type} : List (Option α) → Option (List α)
  | [] => some []
  | none :: _ => none
  | some a :: rest => (allKnown? rest).map (a :: ·)

namespace Replay

/-- Pushes an item. -/
def push (r : Replay) (item : Option Expr) : Replay :=
  { r with stack := item :: r.stack }

/-- Takes an unknown step. -/
def pushUnknown (r : Replay) : Replay :=
  ⟨none :: r.stack, true⟩

/-- Applies an assertion to the items on top. With an unknown item among them, nothing is known
about the conclusion. -/
def apply (db : Database) (a : Assertion) (r : Replay) : Except ProofError Replay :=
  let n := a.hypotheses.length
  if r.stack.length < n then .error (.tooFewItems a.label n r.stack.length)
  else match allKnown? (r.stack.take n).reverse with
    | none => .ok { r with stack := none :: r.stack.drop n }
    | some args =>
      match unify db a args with
      | .error e => .error (.application a.label e)
      | .ok (_, e) => .ok { r with stack := some e :: r.stack.drop n }

/-- Takes the step that a label names in the proof of a theorem. -/
def step (db : Database) (thm : Assertion) (r : Replay) (l : Label) : Except ProofError Replay :=
  if l = "?" then .ok r.pushUnknown
  else if l = thm.label then .error .selfReference
  else match db.activeHypothesis? l with
    | some h => .ok (r.push (some h.expr))
    | none =>
      match db.assertion? l with
      | some a => r.apply db a
      | none => .error (.inactiveStep l)

/-- What is left to check when all steps are taken. -/
def finish (thm : Assertion) (r : Replay) : Except ProofError Unit :=
  if r.incomplete then .ok ()
  else match r.stack with
    | [] => .error .emptyStack
    | [item] =>
      let e := item.getD []
      if e = thm.expr then .ok () else .error (.wrongStatement e)
    | items => .error (.manyItems items.length)

end Replay

/-! ## Verdicts -/

/-- What came of a proof: whether a step was unknown, and what is wrong with it together with the
number of steps that were taken before. -/
structure Verdict where
  incomplete : Bool
  failure : Option (Nat × ProofError)
deriving DecidableEq, Repr

/-- Takes steps up to the first that fails. Gives the last state, and the number of steps taken and
the error if one failed. -/
def runSteps {σ α ε : Type} (f : σ → α → Except ε σ) (taken : Nat) (s : σ) :
    List α → σ × Option (Nat × ε)
  | [] => (s, none)
  | a :: as =>
    match f s a with
    | .error e => (s, some (taken, e))
    | .ok s => runSteps f (taken + 1) s as

/-- The verdict on a replay that took `taken` steps. -/
def Replay.verdict (thm : Assertion) (taken : Nat) (r : Replay) :
    Option (Nat × ProofError) → Verdict
  | some failure => ⟨r.incomplete, some failure⟩
  | none =>
    match r.finish thm with
    | .error e => ⟨r.incomplete, some (taken, e)⟩
    | .ok () => ⟨r.incomplete, none⟩

/-- Checks a proof that is a list of labels. -/
def checkNormal (db : Database) (thm : Assertion) (steps : List Label) : Verdict :=
  let (r, failure) := runSteps (Replay.step db thm) 0 {} steps
  r.verdict thm steps.length failure

/-! ## Compressed proofs -/

/-- A compressed proof in progress, with the items that were marked, in order. -/
structure CompressedReplay where
  replay : Replay := {}
  saved : List (Option Expr) := []
deriving DecidableEq, Repr

namespace CompressedReplay

/-- Takes a step of a compressed proof. Numbers first run through the mandatory hypotheses of the
theorem, then through the labels of the proof, then through the marked items. -/
def step (db : Database) (thm : Assertion) (labels : List Label) (c : CompressedReplay) :
    CompressedStep → Except ProofError CompressedReplay
  | .unknown => .ok { c with replay := c.replay.pushUnknown }
  | .mark =>
    match c.replay.stack with
    | [] => .error .markWithoutItem
    | item :: _ => .ok { c with saved := c.saved ++ [item] }
  | .number n =>
    let i := n - 1
    if i < thm.hypotheses.length then
      match thm.hypotheses[i]?.bind db.hypothesis? with
      | some h => .ok { c with replay := c.replay.push (some h.expr) }
      | none => .error (.hypothesisUndeclared (thm.hypotheses[i]?.getD ""))
    else
      let i := i - thm.hypotheses.length
      match labels[i]? with
      | some l => (c.replay.step db thm l).map fun r => { c with replay := r }
      | none =>
        match c.saved[i - labels.length]? with
        | some item => .ok { c with replay := c.replay.push item }
        | none => .error (.numberTooHigh n)

end CompressedReplay

/-- Checks a compressed proof: its labels and its letters. -/
def checkCompressed (db : Database) (thm : Assertion) (labels : List Label) (letters : Bytes) :
    Verdict :=
  match decodeLetters letters with
  | .error e => ⟨false, some (0, .letters e)⟩
  | .ok steps =>
    let (c, failure) := runSteps (CompressedReplay.step db thm labels) 0 {} steps
    c.replay.verdict thm steps.length failure

end Metamath
