import Metamath.Database.Basic
import Metamath.Position
import Metamath.Report.Severity
import Metamath.Text.Bytes

/-!
# Issues and reports

An `Issue` is a finding about a file, a `FileReport` what came of one database, a `Report` what came
of a whole run.
-/

namespace Metamath

/-- A finding about a file, from the position `start` to the position `stop`. -/
structure Issue where
  rule : String
  category : String
  filename : String
  message : Bytes
  note : Bytes := []
  severity : Severity
  start : Position := {}
  stop : Position := {}
deriving DecidableEq, Repr, Inhabited

/-- What came of one database. -/
structure FileReport where
  filename : String
  stats : Stats := {}
  issues : List Issue := []
deriving DecidableEq, Repr

/-- Whether an issue is graded as an error. -/
def FileReport.failed (r : FileReport) : Bool :=
  r.issues.any (·.severity == .error)

/-- What came of a run. -/
structure Report where
  runId : String := ""
  files : List FileReport
deriving DecidableEq, Repr

namespace Report

/-- Whether a database failed. -/
def failed (r : Report) : Bool :=
  r.files.any FileReport.failed

/-- All issues, in order. -/
def issues (r : Report) : List Issue :=
  r.files.flatMap FileReport.issues

/-- The names of the files that issues point into, sorted. -/
def fileNames (r : Report) : List String :=
  (r.issues.map Issue.filename).eraseDups.mergeSort fun a b => !decide (b < a)

/-- The issues that point into a file. That may be an included file. -/
def issuesOf (r : Report) (name : String) : List Issue :=
  r.issues.filter (·.filename == name)

end Report

end Metamath
