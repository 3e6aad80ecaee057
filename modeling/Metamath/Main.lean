import Metamath.Command.Run

/-!
# The program

Reads the files that a command line needs into a `FileTree`, carries out the command line on it, and
writes back what has changed. All else is decided by `Command.run`.
-/

namespace Metamath.Program

/-- The absolute path of a place. -/
def pathOf (p : Place) : String :=
  "/" ++ "/".intercalate p

/-- The place that a path names, by its text alone. -/
def placeOf (base : Place) (path : String) : Place :=
  let absolute := if Path.isAbsolute path then path else pathOf base ++ "/" ++ path
  (Path.elements (Path.clean absolute)).filter (· ≠ "")

/-- Whether a place is a directory on disk. -/
def isDirectory (p : Place) : IO Bool := do
  try (← IO.FS.realPath (pathOf p)).isDir
  catch _ => return false

/-- The names in a directory on disk. -/
def names (p : Place) : IO (List String) := do
  try return (← (← IO.FS.realPath (pathOf p)).readDir).toList.map (·.fileName)
  catch _ => return []

/-- The content of a file on disk. -/
def content? (p : Place) : IO (Option Bytes) := do
  try return some (← IO.FS.readBinFile (pathOf p)).toList
  catch _ => return none

/-- Adds what is at a place, without what lies below it. -/
def addEntry (t : FileTree) (p : Place) : IO FileTree := do
  if (t.file? p).isSome then return t
  if ← isDirectory p then return { t with folders := p :: t.folders }
  match ← content? p with
  | some content => return t.put p content
  | none => return t

/-- Adds what is at a place and below it. -/
partial def addAll (t : FileTree) (p : Place) : IO FileTree := do
  let mut t ← addEntry t p
  if ← isDirectory p then
    for name in ← names p do
      t ← addAll t (p ++ [name])
  return t

/-- The names that a file includes others by. -/
def includedNames (content : Bytes) : List String :=
  let stream := Source.lex "" { bytes := content }
  (readItems stream.failure stream.tokens).1.filterMap fun
    | .inclusion name => some name.text
    | .token _ => none

/-- Adds the files that are included from files, looked for in some directories. -/
partial def addIncluded (t : FileTree) (directories : List Place) (pending : List Place) :
    IO FileTree := do
  match pending with
  | [] => return t
  | p :: pending =>
    let some file := t.file? p | addIncluded t directories pending
    let mut t := t
    let mut found := []
    for name in includedNames file.2 do
      for directory in directories do
        let q := placeOf directory name
        if (t.file? q).isNone then
          t ← addEntry t q
          found := q :: found
    addIncluded t directories (found ++ pending)

/-- The part of the disk that a request needs. -/
def load (base : Place) (r : Command.Request) : IO FileTree := do
  let mut t : FileTree := { base }
  for path in [r.options.config, r.options.output] do
    t ← addEntry t (placeOf base (Path.directory path))
    t ← addEntry t (placeOf base path)
  for path in r.paths do
    t ← addAll t (placeOf base path)
  let databases := t.files.map Prod.fst
  let directories := (base :: databases.map List.dropLast).eraseDups
  addIncluded t directories databases

/-- Writes the files that have changed. -/
def store (before after : FileTree) : IO Unit := do
  for file in after.files do
    unless before.files.contains file do
      IO.FS.writeBinFile (pathOf file.1) ⟨file.2.toArray⟩

/-- A random identifier for a run. Two of its digits say that it is random. -/
def newRunId : IO String := do
  let digits ← (List.range 32).mapM fun i => do
    let n ← if i = 12 then pure 4 else if i = 16 then IO.rand 8 11 else IO.rand 0 15
    return Text.hexDigit n
  return "-".intercalate <| [(0, 8), (8, 4), (12, 4), (16, 4), (20, 12)].map fun part =>
    String.ofList ((digits.drop part.1).take part.2)

/-- The number of processors of the machine, as far as it can be told. -/
def processors : IO { n : Nat // 0 < n } := do
  let info ← try IO.FS.readFile "/proc/cpuinfo" catch _ => pure ""
  let listed := (info.splitOn "\n").filter (·.startsWith "processor")
  return ⟨max 1 listed.length, by omega⟩

end Metamath.Program

open Metamath in
/-- Carries out a command line. -/
def main (args : List String) : IO UInt32 := do
  let some request := Command.Request.read? args | return 1
  let base := Program.placeOf [] (← IO.currentDir).toString
  let tree ← Program.load base request
  let stdout ← IO.getStdout
  let result := request.run
    { tree, processors := ← Program.processors, runId := ← Program.newRunId,
      terminal := ← stdout.isTty }
  Program.store tree result.tree
  stdout.write ⟨result.output.toArray⟩
  return result.exit.toUInt32
