import Metamath.Files.Tree
import Metamath.Report.Issue
import Metamath.Text.Json

/-!
# Reports as JSON

The fields of reports and statistics in the order in which they are written.
-/

namespace Metamath

open Text (JsonText)

/-- A text as a JSON string. -/
def jsonText (s : String) : JsonText :=
  .string (utf8 s)

/-- A position as JSON. -/
def Position.json (p : Position) : JsonText :=
  .object [("Filename", jsonText p.filename), ("Offset", .number p.offset),
    ("Line", .number p.line), ("Column", .number p.column)]

/-- Counts as JSON. -/
def Stats.json (s : Stats) : JsonText :=
  .object [("constants", .number s.constants), ("variables", .number s.vars),
    ("floating", .number s.floating), ("essential", .number s.essential),
    ("axioms", .number s.axioms), ("theorems", .number s.theorems),
    ("incomplete", .number s.incomplete)]

/-- An issue as JSON. An empty note is left out. -/
def Issue.json (i : Issue) : JsonText :=
  .object ([("rule", jsonText i.rule), ("category", jsonText i.category),
      ("filename", jsonText i.filename), ("message", .string i.message)] ++
    (if i.note.isEmpty then [] else [("note", .string i.note)]) ++
    [("severity", jsonText i.severity.name), ("start", i.start.json), ("end", i.stop.json)])

/-- A report on a database as JSON. -/
def FileReport.json (r : FileReport) : JsonText :=
  .object [("filename", jsonText r.filename), ("stats", r.stats.json),
    ("issues", .arrayOrNull (r.issues.map Issue.json))]

/-- A whole report as JSON. -/
def Report.json (r : Report) : JsonText :=
  .object [("run_id", jsonText r.runId), ("files", .arrayOrNull (r.files.map FileReport.json))]

/-- Writes a report to a file. -/
def Report.writeJson (r : Report) (t : FileTree) (path : String) : Except Failure FileTree :=
  (t.writeFile path r.json.document).mapError .reportNotCreated

end Metamath
