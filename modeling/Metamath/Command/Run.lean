import Metamath.Batch
import Metamath.Command.Request
import Metamath.Report.Render
import Metamath.Report.Table

/-!
# Commands

`Command.run` carries out a command line on a tree of files: `verify` reports on databases, `stats`
counts what they declare, and `init` writes a settings file.
-/

namespace Metamath.Command

/-- What a command line is carried out on. -/
structure Setting where
  tree : FileTree
  /-- The number of processors of the machine. -/
  processors : { n : Nat // 0 < n }
  /-- Names the run in reports. -/
  runId : String
  /-- Whether the output is shown on a terminal. -/
  terminal : Bool := false

/-- What a command leaves behind. -/
structure Result where
  /-- The exit code. -/
  exit : Nat
  output : Bytes := []
  tree : FileTree

/-- The end of a command that cannot go on. -/
def Setting.fail (s : Setting) (output : Bytes := []) : Result :=
  { exit := 1, output, tree := s.tree }

/-- The end of a command that has reported. -/
def Setting.finish (s : Setting) (report : Report) (output : Bytes) : Result :=
  { exit := if report.failed then 1 else 0, output, tree := s.tree }

/-- The interruption by a time limit. A limit below a microsecond is over before the start. -/
def deadline? (o : Options) : Option Interruption :=
  if o.timeout < 1000 then some .deadlineExceeded else none

/-- The settings of a run and its engine. -/
def prepare? (s : Setting) (o : Options) : Option (Settings × Engine) := do
  let settings ← (Settings.load s.tree o.config).toOption
  let engine ← (Engine.ofRules "." settings.rules).toOption
  return (settings, engine)

/-- The report on paths, by an engine that `adjust` has changed. -/
def report? (s : Setting) (o : Options) (workers : Int) (adjust : Engine → Engine)
    (paths : List String) : Option Report := do
  let p ← prepare? s o
  let options : BatchOptions :=
    { extensions := p.1.extensions, processors := s.processors, workers }
  let files ← ((adjust p.2).checkPaths s.tree options (deadline? o) paths).toOption
  return { runId := s.runId, files }

/-- What is printed if paths are needed and none are given. -/
def noPaths : Bytes :=
  utf8 "error: Please provide file or directory paths\n"

/-- Reports on databases: as a text, or as JSON on the output or in a file. -/
def verify (s : Setting) (o : Options) (paths : List String) : Result :=
  if paths.isEmpty then s.fail noPaths
  else
    match report? s o o.workers (·.ignoreLists o.ignoredRules o.ignoredPaths) paths with
    | none => s.fail
    | some report =>
      if !o.json then s.finish report (report.render s.tree (s.terminal && !o.noColor))
      else if o.output = "" then s.finish report report.json.document
      else
        match report.writeJson s.tree o.output with
        | .error _ => s.fail
        | .ok tree => { s with tree }.finish report []

/-- Counts what databases declare. -/
def stats (s : Setting) (o : Options) (paths : List String) : Result :=
  if paths.isEmpty then s.fail noPaths
  else
    match report? s o 0 id paths with
    | none => s.fail
    | some report =>
      s.finish report
        (if o.json then (statsJson report.files).document else utf8 (statsTable report.files))

/-- Writes the default settings. A failure is not told by the exit code. -/
def init (s : Setting) (o : Options) : Result :=
  match Settings.init s.tree o.config with
  | .error _ => { exit := 0, tree := s.tree }
  | .ok (path, tree) =>
    { exit := 0, output := utf8 s!"Configuration file created/updated: {path}\n", tree }

/-- Carries out a request. -/
def Request.run (r : Request) (s : Setting) : Result :=
  if r.options.help then { exit := 0, tree := s.tree }
  else
    match r.verb with
    | .bare => if r.paths.isEmpty then { exit := 0, tree := s.tree } else verify s r.options r.paths
    | .verify => verify s r.options r.paths
    | .stats => stats s r.options r.paths
    | .init => init s r.options
    | .help => { exit := 0, tree := s.tree }

/-- Carries out a command line. -/
def run (s : Setting) (args : List String) : Result :=
  match Request.read? args with
  | none => s.fail
  | some r => r.run s

end Metamath.Command
