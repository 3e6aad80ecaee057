import Metamath.Engine
import Metamath.Pool

/-!
# Checking many files

`Engine.checkPaths` checks files and directories in the given order. A directory stands for the
files below it that have one of the extensions; they are checked independently of each other, and
one that cannot be read gets a report that says so.
-/

namespace Metamath

/-- How directories are gone through. -/
structure BatchOptions where
  extensions : List String
  /-- The number of processors of the machine. -/
  processors : { n : Nat // 0 < n }
  /-- How many files are checked at a time. If it is not positive, it is one for each processor. -/
  workers : Int := 0
deriving DecidableEq, Repr

/-- The number of files that are checked at a time. -/
def BatchOptions.limit (o : BatchOptions) : Nat :=
  if o.workers ≤ 0 then o.processors else o.workers.toNat

/-- The report on a file that could not be read. -/
def unreadable (path : String) (f : Failure) : FileReport where
  filename := path
  issues := [{ rule := "read-error", category := "io", filename := path, message := utf8 f.text,
               severity := .error }]

namespace FileTree

/-- The files below a directory with one of the extensions, in order. -/
def databases (t : FileTree) (path : String) (extensions : List String) : List String :=
  (t.walk path).filter fun file => extensions.contains (Path.extension file)

end FileTree

namespace Engine

/-- The report on a file of a directory. Only an interruption, which is noticed after so many tokens,
leaves a file without one. -/
def checkMember (e : Engine) (t : FileTree) (notice : Option Nat) (path : String) :
    Except Interruption FileReport :=
  match e.checkUntil t (notice.map fun after => { cause := .canceled, after }) path with
  | .ok r => .ok r
  | .error (.interrupted i) => .error i
  | .error f => .ok (unreadable path f)

/-- Checks a file, whatever its extension, or a directory. -/
def checkPath (e : Engine) (t : FileTree) (o : BatchOptions) (interrupt : Option Interruption)
    (path : String) : Except Failure (List FileReport) :=
  match t.statFolder path with
  | .error err => .error (.notAccessible path err)
  | .ok false => (e.check t interrupt path).map fun r => [r]
  | .ok true =>
    match interrupt with
    | some i => .error (.interrupted i)
    | none =>
      (Pool.run o.limit (e.checkMember t) (t.databases path o.extensions)).mapError .interrupted

/-- Checks paths in order, up to the first that fails. -/
def checkPaths (e : Engine) (t : FileTree) (o : BatchOptions) (interrupt : Option Interruption) :
    List String → Except Failure (List FileReport)
  | [] => .ok []
  | path :: paths => do
    let reports ← e.checkPath t o interrupt path
    return reports ++ (← e.checkPaths t o interrupt paths)

/-- Checks texts in order, up to the first that fails. -/
def checkSources (e : Engine) (t : FileTree) : List Bytes → Except Failure (List FileReport)
  | [] => .ok []
  | source :: sources => do
    let report ← e.checkSource t none source
    return report :: (← e.checkSources t sources)

end Engine

/-! ## Watching -/

/-- What happened to a file, as bits: 1 created, 2 written, 4 removed, 8 renamed, 16 changed in its
attributes. -/
structure FileEvent where
  name : String
  bits : Nat
deriving DecidableEq, Repr

/-- Whether a file is checked again after an event: it has new content and a known extension. -/
def FileEvent.concerns (e : FileEvent) (extensions : List String) : Bool :=
  (e.bits.testBit 0 || e.bits.testBit 1) && extensions.contains (Path.extension e.name)

end Metamath
