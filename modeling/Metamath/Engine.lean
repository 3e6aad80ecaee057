import Metamath.Report.Issue
import Metamath.Text.Blank
import Metamath.Verify

/-!
# The engine

An `Engine` holds the settings of a run: how incomplete proofs are graded, which rules and paths are
left out. `Engine.check` checks a file and `Engine.checkSource` a text; both turn diagnostics into
issues. Only warnings can be graded or left out, never a diagnostic that ends a run.
-/

namespace Metamath

/-- The settings of a run. -/
structure Engine where
  /-- The directory in which files are looked for that a text includes. -/
  root : String
  /-- The grade of incomplete proofs. -/
  incomplete : Severity := .warning
  ignoredRules : List String := []
  /-- Cleaned paths. -/
  ignoredPaths : List String := []
deriving DecidableEq, Repr

/-- A rule that is given a severity with no meaning. -/
structure InvalidSeverity where
  code : Int
  rule : String
deriving DecidableEq, Repr

def InvalidSeverity.text (e : InvalidSeverity) : String :=
  s!"invalid severity {e.code} for rule {e.rule}"

/-- The settings in force after an interruption, if there was one before the start. -/
def startInterrupt (i : Option Interruption) : Option Interrupt :=
  i.map fun cause => { cause }

namespace Engine

/-! ## Settings -/

/-- Leaves out the warnings of a rule. -/
def ignoreRule (e : Engine) (rule : String) : Engine :=
  { e with ignoredRules := rule :: e.ignoredRules }

/-- Leaves out a file, or all files below a directory. -/
def ignorePath (e : Engine) (path : String) : Engine :=
  { e with ignoredPaths := e.ignoredPaths ++ [Path.clean path] }

/-- Leaves out the rules and the paths of two lists with commas. -/
def ignoreLists (e : Engine) (rules paths : String) : Engine :=
  let e := (Text.splitList rules).foldl ignoreRule e
  (Text.splitList paths).foldl ignorePath e

/-- The engine that grades rules as given. Only incomplete proofs can be graded. -/
def ofRules (root : String) (rules : List (String × Severity)) : Except InvalidSeverity Engine :=
  match rules.lookup Kind.incompleteProof.name with
  | none => .ok { root }
  | some (.unknown code) => .error ⟨code, Kind.incompleteProof.name⟩
  | some .off => .ok { root, incomplete := .off, ignoredRules := [Kind.incompleteProof.name] }
  | some severity => .ok { root, incomplete := severity }

/-- Whether a file is left out: its cleaned path is an ignored one or lies below one. -/
def isIgnored (e : Engine) (path : String) : Bool :=
  let path := Path.clean path
  e.ignoredPaths.any fun p => path == p || (p ++ "/").toList.isPrefixOf path.toList

/-! ## Issues -/

/-- The issue for a diagnostic in the check of a file. It points into the file in which the fault
was found, which may be an included one. -/
def issue (filename : String) (d : Diagnostic) (severity : Severity) : Issue where
  rule := d.kind.name
  category := "verification"
  filename := if d.pos.filename = "" then filename else d.pos.filename
  message := utf8 d.message
  note := utf8 d.note
  severity := severity
  start := d.pos
  stop := d.pos

/-- How grave a fault of a kind is, unless it is left out. What ends a run is always an error; only
the rest can be graded or left out. -/
def severity? (e : Engine) (k : Kind) : Option Severity :=
  if k.isFatal then some .error
  else if e.ignoredRules.contains k.name then none
  else some e.incomplete

/-- The issue for a diagnostic, unless it is left out. -/
def issue? (e : Engine) (filename : String) (d : Diagnostic) : Option Issue :=
  (e.severity? d.kind).map (issue filename d)

/-- The report on a run. A failure that is no diagnostic is not for a report. -/
def report (e : Engine) (filename : String) (o : Outcome) : Except Failure FileReport :=
  let warnings := o.warnings.filterMap (e.issue? filename)
  match o.failure with
  | none => .ok { filename, stats := o.stats, issues := warnings }
  | some (.diagnostic d) =>
    let last := (e.issue? filename d).getD default
    .ok { filename, stats := o.stats, issues := warnings ++ [last] }
  | some f => .error f

/-! ## Checks -/

/-- Checks the database in a file, until it is interrupted. -/
def checkUntil (e : Engine) (t : FileTree) (interrupt : Option Interrupt) (path : String) :
    Except Failure FileReport :=
  if e.isIgnored path then .ok { filename := path }
  else
    match t.verifyFile path interrupt with
    | .error f => .error f
    | .ok o => e.report path o

/-- Checks the database in a file. -/
def check (e : Engine) (t : FileTree) (interrupt : Option Interruption) (path : String) :
    Except Failure FileReport :=
  e.checkUntil t (startInterrupt interrupt) path

/-- Checks the database in a text. -/
def checkSource (e : Engine) (t : FileTree) (interrupt : Option Interruption) (source : Bytes) :
    Except Failure FileReport :=
  e.report "" (verifySource (t.opener e.root) "" { bytes := source } (startInterrupt interrupt))

end Engine

end Metamath
