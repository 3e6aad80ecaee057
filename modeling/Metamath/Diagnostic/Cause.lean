import Metamath.Expr
import Metamath.Text.Quoted

/-!
# Causes of diagnostics

Everything that can be wrong with a database, as data: one error type for each activity, joined in
`Cause`. Each type says which `Kind` of fault a cause is (`kind`) and how it is worded (`message`).
-/

namespace Metamath

/-! ## Kinds -/

/-- The kinds of faults. Only an incomplete proof leaves the rest of the database readable. -/
inductive Kind where
  | malformed
  | duplicateSymbol
  | duplicateLabel
  | undeclaredSymbol
  | undeclaredLabel
  | scopeViolation
  | typeMismatch
  | stackMismatch
  | disjointViolation
  | incompleteProof
deriving DecidableEq, Repr, Inhabited

namespace Kind

/-- All kinds, in the order of their codes. -/
def all : List Kind :=
  [malformed, duplicateSymbol, duplicateLabel, undeclaredSymbol, undeclaredLabel, scopeViolation,
    typeMismatch, stackMismatch, disjointViolation, incompleteProof]

/-- The name of the rule that a fault of this kind breaks. -/
def name : Kind → String
  | malformed => "syntax-error"
  | duplicateSymbol => "duplicate-symbol"
  | duplicateLabel => "duplicate-label"
  | undeclaredSymbol => "undeclared-symbol"
  | undeclaredLabel => "undeclared-label"
  | scopeViolation => "scope-violation"
  | typeMismatch => "type-mismatch"
  | stackMismatch => "proof-stack-mismatch"
  | disjointViolation => "disjoint-violation"
  | incompleteProof => "incomplete-proof"

/-- Whether a fault of this kind ends the run. -/
def isFatal (k : Kind) : Bool :=
  k != incompleteProof

/-- The kind with a code. Codes count from 0. -/
def ofCode? (code : Int) : Option Kind :=
  if code < 0 then none else all[code.toNat]?

/-- The rule name for a code: a code without a kind is `unknown`. -/
def nameOfCode (code : Int) : String :=
  ((ofCode? code).map name).getD "unknown"

/-- Whether a fault with this code ends the run: so it does without a kind. -/
def isFatalCode (code : Int) : Bool :=
  ((ofCode? code).map isFatal).getD true

/-- What a fault can be compared with: another fault, or the end of a file. -/
inductive Target where
  | fault (code : Int)
  | endOfFile
deriving DecidableEq, Repr

/-- Whether a fault with this code counts as the target. Only the kind matters, and no fault counts as
the end of a file. -/
def codeMatches (code : Int) : Target → Bool
  | .fault other => code == other
  | .endOfFile => false

end Kind

/-! ## Reading tokens -/

/-- What can be wrong with the characters of a file. -/
inductive LexError where
  | delimiterOutsideComment (text : String)
  | unclosedComment
  | openingInComment
  | closingInComment
  | invalidCharacter (byte : UInt8)
deriving DecidableEq, Repr

def LexError.message : LexError → String
  | delimiterOutsideComment text => s!"comment delimiter in token {text} outside of a comment"
  | unclosedComment => "unclosed comment"
  | openingInComment => "characters $( found in a comment"
  | closingInComment => "characters $) found in a comment"
  | invalidCharacter byte => "invalid character with code 0x" ++ Text.hex 2 byte.toNat

/-- What can be wrong with a file inclusion command. -/
inductive InclusionError where
  | unfinished
  | dollarInName (name : String)
  | unclosed
deriving DecidableEq, Repr

def InclusionError.message : InclusionError → String
  | unfinished => "unfinished file inclusion command"
  | dollarInName name => s!"file name {name} contains a $"
  | unclosed => "didn't find closing file inclusion delimiter"

/-! ## Declaring -/

/-- What can be wrong with a declaration. -/
inductive DeclarationError where
  | noOpenBlock
  | labelIsConstant (label : Label)
  | labelIsVariable (label : Label)
  | labelTaken (label : Label)
  | constantInBlock
  | notAConstant (symbol : Symbol)
  | constantIsVariable (symbol : Symbol)
  | constantIsLabel (symbol : Symbol)
  | constantTaken (symbol : Symbol)
  | notAVariable (symbol : Symbol)
  | variableIsConstant (symbol : Symbol)
  | variableIsLabel (symbol : Symbol)
  | variableTaken (symbol : Symbol)
  | typecodeNotConstant (stmt : String) (label : Label) (symbol : Symbol)
  | variableInactive (label : Label) (symbol : Symbol)
  | secondFloating (symbol : Symbol) (label first : Label)
  | emptyExpression (stmt : String) (label : Label)
  | symbolInactive (stmt : String) (label : Label) (symbol : Symbol)
  | disjointInactive (symbol : Symbol)
  | disjointRepeated (symbol : Symbol)
  | disjointTooFew
deriving DecidableEq, Repr

namespace DeclarationError

def kind : DeclarationError → Kind
  | noOpenBlock | constantInBlock | secondFloating .. => .scopeViolation
  | labelIsConstant _ | labelIsVariable _ | labelTaken _ => .duplicateLabel
  | constantIsVariable _ | constantIsLabel _ | constantTaken _
  | variableIsConstant _ | variableIsLabel _ | variableTaken _ => .duplicateSymbol
  | typecodeNotConstant .. | variableInactive .. | symbolInactive .. | disjointInactive _ =>
    .undeclaredSymbol
  | notAConstant _ | notAVariable _ | emptyExpression .. | disjointRepeated _ | disjointTooFew =>
    .malformed

def message : DeclarationError → String
  | noOpenBlock => "$\x7d without corresponding $\x7b"
  | labelIsConstant l => s!"attempt to reuse constant {l} as a label"
  | labelIsVariable l => s!"attempt to reuse variable {l} as a label"
  | labelTaken l => s!"attempt to reuse label {l}"
  | constantInBlock => "$c statement occurs in inner block"
  | notAConstant s => s!"attempt to declare {s} as a constant"
  | constantIsVariable s => s!"attempt to redeclare variable {s} as a constant"
  | constantIsLabel s => s!"attempt to reuse label {s} as a constant"
  | constantTaken s => s!"attempt to redeclare constant {s}"
  | notAVariable s => s!"attempt to declare {s} as a variable"
  | variableIsConstant s => s!"attempt to redeclare constant {s} as a variable"
  | variableIsLabel s => s!"attempt to reuse label {s} as a variable"
  | variableTaken s => s!"attempt to redeclare active variable {s}"
  | typecodeNotConstant stmt l s =>
    s!"first symbol in {stmt} statement {l} is {s} which is not a constant"
  | variableInactive l s =>
    s!"second symbol in $f statement {l} is {s} which is not an active variable"
  | secondFloating s l first =>
    s!"the variable {s} appears in a second $f statement {l} (first in {first})"
  | emptyExpression stmt l => s!"{stmt} statement {l} has an empty expression"
  | symbolInactive stmt l s =>
    s!"in {stmt} statement {l} symbol {s} is not a constant or a variable in an active $f statement"
  | disjointInactive s => s!"token {s} is not an active variable, but was found in a $d statement"
  | disjointRepeated s => s!"$d statement mentions {s} twice"
  | disjointTooFew => "not enough items in $d statement"

end DeclarationError

/-! ## Proving -/

/-- What can go wrong when an assertion is applied to arguments. -/
inductive UnifyError where
  | argumentCount (expected found : Nat)
  | hypothesisUndeclared (hypothesis : Label)
  | typecode (hypothesis : Label) (expected : Symbol) (found : Expr)
  | essential (hypothesis : Label) (expected found : Expr)
  | disjoint (x y u v : Symbol)
deriving DecidableEq, Repr

namespace UnifyError

def kind : UnifyError → Kind
  | argumentCount .. | essential .. => .stackMismatch
  | hypothesisUndeclared _ => .undeclaredLabel
  | typecode .. => .typeMismatch
  | disjoint .. => .disjointViolation

/-- The wording, for the assertion that was applied. -/
def message (assertion : Label) : UnifyError → String
  | argumentCount expected found =>
    s!"{assertion} expects {expected} hypotheses but {found} items were supplied"
  | hypothesisUndeclared h => s!"hypothesis {h} of {assertion} is not declared"
  | typecode h expected found =>
    s!"unification failed for {assertion}: hypothesis {h} expects typecode {expected} but found " ++
      Text.quote found.text
  | essential h expected found =>
    s!"unification failed for {assertion}: hypothesis {h} expects " ++ Text.quote expected.text ++
      " but found " ++ Text.quote found.text
  | disjoint x y u v =>
    s!"disjoint variable restriction ({x}, {y}) of {assertion} violated: " ++
      s!"{u} and {v} are not disjoint"

end UnifyError

/-- What can be wrong with the letters of a compressed proof. -/
inductive LetterError where
  | overflow
  | strayMark
  | unknownInNumber
  | bogus (byte : UInt8)
  | unfinishedNumber
deriving DecidableEq, Repr

def LetterError.message : LetterError → String
  | overflow => "overflow computing numbers in compressed proof"
  | strayMark => "stray Z found in compressed proof"
  | unknownInNumber => "? inside a number in compressed proof"
  | bogus byte => "bogus character " ++ Text.quoteCode byte.toNat ++ " found in compressed proof"
  | unfinishedNumber => "compressed proof ends in unfinished number"

/-- What can be wrong with a proof. -/
inductive ProofError where
  | selfReference
  | inactiveStep (label : Label)
  | tooFewItems (assertion : Label) (needed found : Nat)
  | application (assertion : Label) (error : UnifyError)
  | hypothesisUndeclared (hypothesis : Label)
  | markWithoutItem
  | numberTooHigh (number : Nat)
  | letters (error : LetterError)
  | emptyStack
  | manyItems (count : Nat)
  | wrongStatement (found : Expr)
deriving DecidableEq, Repr

namespace ProofError

def kind : ProofError → Kind
  | selfReference | inactiveStep _ | hypothesisUndeclared _ => .undeclaredLabel
  | application _ e => e.kind
  | tooFewItems .. | markWithoutItem | emptyStack | manyItems _ | wrongStatement _ => .stackMismatch
  | numberTooHigh _ | letters _ => .malformed

/-- The wording, for the theorem whose proof it is. -/
def message (thm : Label) : ProofError → String
  | selfReference => s!"proof of theorem {thm} refers to itself"
  | inactiveStep l => s!"proof of theorem {thm} refers to {l} which is not an active statement"
  | tooFewItems a needed found =>
    s!"in proof of theorem {thm} not enough items found on stack for {a} " ++
      s!"(need {needed}, have {found})"
  | application a e => s!"in proof of theorem {thm}: " ++ e.message a
  | hypothesisUndeclared h => s!"hypothesis {h} of {thm} is not declared"
  | markWithoutItem => s!"compressed proof of theorem {thm} saves a step from an empty stack"
  | numberTooHigh n => s!"number {n} in compressed proof of {thm} is too high"
  | letters e => e.message
  | emptyStack => s!"proof of theorem {thm} leaves the stack empty"
  | manyItems n =>
    s!"proof of theorem {thm} does not end with only one item on the stack ({n} items)"
  | wrongStatement e => s!"proof of theorem {thm} proves wrong statement " ++ Text.quote e.text

end ProofError

/-! ## Statements -/

/-- What can be wrong with the shape of a statement. -/
inductive StatementError where
  | unclosedBlock
  | unexpectedToken (token : String)
  | unexpectedKeyword (keyword : String) (label : Label)
  | emptyDeclaration (stmt : String)
  | unterminated (stmt : String)
  | unfinishedLabel (label : Label)
  | unfinished (stmt : String) (label : Label)
  | floatingNotEnded (label : Label) (token : String)
  | bogusLetters (label : Label)
  | mandatoryInLabels (label hypothesis : Label)
deriving DecidableEq, Repr

namespace StatementError

def kind : StatementError → Kind
  | unclosedBlock => .scopeViolation
  | _ => .malformed

def message : StatementError → String
  | unclosedBlock => "$\x7b without corresponding $\x7d"
  | unexpectedToken t => s!"unexpected token {t} encountered"
  | unexpectedKeyword k l => s!"unexpected token {k} encountered after label {l}"
  | emptyDeclaration stmt => s!"empty {stmt} statement"
  | unterminated stmt => s!"unterminated {stmt} statement"
  | unfinishedLabel l => s!"unfinished labeled statement {l}"
  | unfinished stmt l => s!"unfinished {stmt} statement {l}"
  | floatingNotEnded l t => s!"expected end of $f statement {l} but found {t}"
  | bogusLetters l => s!"bogus character found in compressed proof of {l}"
  | mandatoryInLabels l h =>
    s!"compressed proof of theorem {l} has mandatory hypothesis {h} in label list"

end StatementError

/-! ## All causes -/

/-- What a diagnostic is about. -/
inductive Cause where
  | lex (error : LexError)
  | inclusion (error : InclusionError)
  | declaration (error : DeclarationError)
  | unify (assertion : Label) (error : UnifyError)
  | letters (error : LetterError)
  | proof (thm : Label) (error : ProofError)
  | statement (error : StatementError)
  | incompleteProof (thm : Label)
deriving DecidableEq, Repr

namespace Cause

def kind : Cause → Kind
  | lex _ | inclusion _ | letters _ => .malformed
  | declaration e => e.kind
  | unify _ e => e.kind
  | proof _ e => e.kind
  | statement e => e.kind
  | incompleteProof _ => .incompleteProof

def message : Cause → String
  | lex e => e.message
  | inclusion e => e.message
  | declaration e => e.message
  | unify a e => e.message a
  | letters e => e.message
  | proof thm e => e.message thm
  | statement e => e.message
  | incompleteProof thm => s!"proof of theorem {thm} is incomplete"

end Cause

end Metamath
