/-!
# File errors

Why a file could not be opened, examined or read, worded as `open x: no such file or directory`.
-/

namespace Metamath

/-- What was asked of a file. -/
inductive FileOperation where
  | openFile
  | statFile
  | readFile
deriving DecidableEq, Repr

def FileOperation.name : FileOperation → String
  | openFile => "open"
  | statFile => "stat"
  | readFile => "read"

/-- Why it failed. -/
inductive FileReason where
  | noSuchFile
  | notADirectory
  | isADirectory
  | doesNotExist
  | invalidArgument
  | nameTooLong
deriving DecidableEq, Repr

def FileReason.text : FileReason → String
  | noSuchFile => "no such file or directory"
  | notADirectory => "not a directory"
  | isADirectory => "is a directory"
  | doesNotExist => "file does not exist"
  | invalidArgument => "invalid argument"
  | nameTooLong => "file name too long"

/-- A failed operation on a path. -/
structure FileError where
  operation : FileOperation
  path : String
  reason : FileReason
deriving DecidableEq, Repr

/-- The error in one line. -/
def FileError.text (e : FileError) : String :=
  e.operation.name ++ " " ++ e.path ++ ": " ++ e.reason.text

/-- Why an included file could not be opened: there may be no way to open files at all. -/
inductive OpenError where
  | unavailable
  | file (error : FileError)
deriving DecidableEq, Repr

def OpenError.text : OpenError → String
  | unavailable => "file inclusion is not available"
  | file e => e.text

end Metamath
