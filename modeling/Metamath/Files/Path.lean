import Metamath.Text.Split

/-!
# Paths

Paths are texts with elements between slashes. `Path.clean` gives the shortest path with the same
meaning that looking at the text alone can find; `Path.join` joins two paths and cleans the result.
-/

namespace Metamath.Path

/-- The parts of a path between slashes. -/
def elements (path : String) : List String :=
  (Text.splitWhere (· == '/') path.toList).map String.ofList

/-- Whether a path starts at the root. -/
def isAbsolute (path : String) : Bool :=
  path.toList.head? == some '/'

/-- Adds an element to a cleaned path, given from its end. A `..` takes away the element before it
and stays only where there is none; at the root it vanishes. -/
def pushElement (absolute : Bool) (stack : List String) (e : String) : List String :=
  if e = "" ∨ e = "." then stack
  else if e = ".." then
    match stack with
    | [] => if absolute then [] else [".."]
    | last :: rest => if last = ".." then ".." :: stack else rest
  else e :: stack

/-- The elements of a path that its cleaned path has. -/
def keptElements (path : String) : List String :=
  ((elements path).foldl (pushElement (isAbsolute path)) []).reverse

/-- The path without empty elements, `.` and removable `..`. The empty path becomes `.`. -/
def clean (path : String) : String :=
  let body := "/".intercalate (keptElements path)
  if isAbsolute path then "/" ++ body else if body = "" then "." else body

/-- The cleaned path of a name in a directory. -/
def join (dir name : String) : String :=
  if dir = "" ∧ name = "" then ""
  else if dir = "" then clean name
  else if name = "" then clean dir
  else clean (dir ++ "/" ++ name)

/-- The path of a name that is given from a directory. -/
def resolve (dir name : String) : String :=
  if isAbsolute name then name else join dir name

/-- The directory that a path is in. -/
def directory (path : String) : String :=
  clean (String.ofList (path.toList.reverse.dropWhile (· ≠ '/')).reverse)

/-- The extension: the last element from its last dot on. -/
def extension (path : String) : String :=
  let base := path.toList.reverse.takeWhile (· ≠ '/')
  if base.contains '.' then String.ofList ('.' :: (base.takeWhile (· ≠ '.')).reverse) else ""

end Metamath.Path
