import Metamath.Report.Json
import Metamath.Text.Columns

/-!
# Statistics

What databases declare, as a table and as JSON.
-/

namespace Metamath

/-- The heads of the columns. -/
def tableHeads : List String :=
  ["FILE", "CONSTANTS", "VARIABLES", "$f", "$e", "$a", "$p", "INCOMPLETE", "STATUS"]

/-- The cells of a database. -/
def FileReport.cells (r : FileReport) : List String :=
  [r.filename, toString r.stats.constants, toString r.stats.vars, toString r.stats.floating,
    toString r.stats.essential, toString r.stats.axioms, toString r.stats.theorems,
    toString r.stats.incomplete, if r.failed then "failed" else "ok"]

/-- The table: two spaces part the columns. -/
def statsTable (files : List FileReport) : String :=
  let row (cells : List String) := String.join (cells.map (· ++ "\t")) ++ "\n"
  Text.alignColumns 2 (String.join ((tableHeads :: files.map FileReport.cells).map row))

/-- The counts by file name, sorted. Of two databases with one name the later counts. -/
def statsJson (files : List FileReport) : Text.JsonText :=
  let names := (files.map FileReport.filename).eraseDups.mergeSort fun a b => !decide (b < a)
  .object (names.filterMap fun name =>
    (files.reverse.find? (·.filename == name)).map fun r => (name, r.stats.json))

end Metamath
