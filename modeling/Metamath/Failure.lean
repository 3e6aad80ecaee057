import Metamath.Diagnostic
import Metamath.Files.Error

/-!
# Failures

A `Failure` is what ends a run: a diagnostic about the database, an interruption from outside, or
trouble with the files it is read from.
-/

namespace Metamath

/-- How a run is stopped from outside. -/
inductive Interruption where
  | canceled
  | deadlineExceeded
deriving DecidableEq, Repr

def Interruption.text : Interruption → String
  | canceled => "context canceled"
  | deadlineExceeded => "context deadline exceeded"

/-- What ends a run. -/
inductive Failure where
  | diagnostic (d : Diagnostic)
  | interrupted (i : Interruption)
  | file (error : FileError)
  | notOpened (path : String) (error : FileError)
  | notIncluded (pos : Position) (name : String) (error : OpenError)
  | notAccessible (path : String) (error : FileError)
  | reportNotCreated (error : FileError)
  | broken (reason : String)
deriving DecidableEq, Repr

namespace Failure

/-- The failure in one line. -/
def text : Failure → String
  | diagnostic d => d.text
  | interrupted i => i.text
  | file e => e.text
  | notOpened path e => s!"could not open {path}: " ++ e.text
  | notIncluded pos name e => pos.text ++ s!": could not open {name}: " ++ e.text
  | notAccessible path e => s!"error accessing {path}: " ++ e.text
  | reportNotCreated e => "error creating JSON output file: " ++ e.text
  | broken reason => reason

end Failure

end Metamath
