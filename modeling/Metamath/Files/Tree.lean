import Metamath.Files.Path
import Metamath.Token.Basic

/-!
# File trees

A `FileTree` holds files by their places, and the working directory from which relative paths start.
Paths are followed element by element, as an operating system does: every element but the last must
lead to a directory.
-/

namespace Metamath

/-- The elements that lead from the root to a place. -/
abbrev Place := List String

/-- Files, directories that may be empty, and the working directory. -/
structure FileTree where
  files : List (Place × Bytes) := []
  folders : List Place := []
  base : Place := []
deriving DecidableEq, Repr

/-- What is found at a place. -/
inductive Entry where
  | file (content : Bytes)
  | folder
deriving DecidableEq, Repr

namespace FileTree

/-! ## Places -/

/-- The file at a place. -/
def file? (t : FileTree) (p : Place) : Option (Place × Bytes) :=
  t.files.find? (·.1 == p)

/-- Whether a place is a directory: the working directory, one of the directories, or one on the way
to a file or directory. -/
def isFolder (t : FileTree) (p : Place) : Bool :=
  p.isPrefixOf t.base || t.folders.any p.isPrefixOf ||
    t.files.any fun f => f.1 != p && p.isPrefixOf f.1

/-- What is at a place. -/
def entry? (t : FileTree) (p : Place) : Option Entry :=
  match t.file? p with
  | some f => some (.file f.2)
  | none => if t.isFolder p then some .folder else none

/-! ## Following paths -/

/-- How many bytes an element of a path may have. -/
def maxNameSize : Nat := 255

/-- How many bytes a path may have. -/
def maxPathSize : Nat := 4095

/-- What is wrong with a path, wherever it leads. -/
def pathFault? (path : String) : Option FileReason :=
  if path.toList.contains '\x00' then some .invalidArgument
  else if path = "" then some .noSuchFile
  else if maxPathSize < path.utf8ByteSize then some .nameTooLong
  else none

/-- The place one element further. The root is the directory that it is in itself. -/
def follow (t : FileTree) (p : Place) (e : String) : Except FileReason Place :=
  if t.entry? p ≠ some .folder then .error .notADirectory
  else if e = "" ∨ e = "." then .ok p
  else if e = ".." then .ok p.dropLast
  else if maxNameSize < e.utf8ByteSize then .error .nameTooLong
  else if (t.entry? (p ++ [e])).isSome then .ok (p ++ [e])
  else .error .noSuchFile

/-- Where a path starts. -/
def start (t : FileTree) (path : String) : Place :=
  if Path.isAbsolute path then [] else t.base

/-- The place that a path leads to. -/
def locate (t : FileTree) (path : String) : Except FileReason Place :=
  match pathFault? path with
  | some reason => .error reason
  | none => (Path.elements path).foldlM t.follow (t.start path)

/-- What a path leads to. -/
def lookup (t : FileTree) (path : String) : Except FileReason Entry :=
  match t.locate path with
  | .error reason => .error reason
  | .ok p =>
    match t.entry? p with
    | some entry => .ok entry
    | none => .error .noSuchFile

/-! ## Operations -/

/-- Opens a file. A directory can be opened, but not read. -/
def openFile (t : FileTree) (path : String) : Except FileError Source :=
  match t.lookup path with
  | .error reason => .error ⟨.openFile, path, reason⟩
  | .ok (.file content) => .ok { bytes := content }
  | .ok .folder => .ok { bytes := [], failure := some (.file ⟨.readFile, path, .isADirectory⟩) }

/-- The whole content of a file. -/
def readFile (t : FileTree) (path : String) : Except FileError Bytes :=
  match t.lookup path with
  | .error reason => .error ⟨.openFile, path, reason⟩
  | .ok (.file content) => .ok content
  | .ok .folder => .error ⟨.readFile, path, .isADirectory⟩

/-- Whether a path leads to a directory. -/
def statFolder (t : FileTree) (path : String) : Except FileError Bool :=
  match t.lookup path with
  | .error reason => .error ⟨.statFile, path, reason⟩
  | .ok entry => .ok (entry == .folder)

/-- Puts a file at a place. -/
def put (t : FileTree) (p : Place) (content : Bytes) : FileTree :=
  if (t.file? p).isSome then
    { t with files := t.files.map fun f => if f.1 == p then (p, content) else f }
  else { t with files := t.files ++ [(p, content)] }

/-- Writes a file, which is made if its directory exists. -/
def writeFile (t : FileTree) (path : String) (content : Bytes) : Except FileError FileTree :=
  let failed reason := .error ⟨.openFile, path, reason⟩
  match pathFault? path with
  | some reason => failed reason
  | none =>
    let elements := (Path.elements path).reverse
    let slashed := elements.head? = some ""
    match elements.dropWhile (· = "") with
    | [] => failed .isADirectory
    | name :: before =>
      match before.reverse.foldlM t.follow (t.start path) with
      | .error reason => failed reason
      | .ok p =>
        if t.entry? p ≠ some .folder then failed .notADirectory
        else if slashed ∨ name = "." ∨ name = ".." ∨ t.entry? (p ++ [name]) = some .folder then
          failed .isADirectory
        else if maxNameSize < name.utf8ByteSize then failed .nameTooLong
        else .ok (t.put (p ++ [name]) content)

/-- The files below a directory: elements are compared one by one, so that a directory comes in the
place of its name. -/
def walk (t : FileTree) (path : String) : List String :=
  match t.locate path with
  | .ok p =>
    let below := (t.files.map Prod.fst).filter fun f => p.isPrefixOf f && f != p
    let sorted := below.mergeSort fun a b => !decide (b < a)
    sorted.map fun f => Path.join path ("/".intercalate (f.drop p.length))
  | .error _ => []

end FileTree

end Metamath
