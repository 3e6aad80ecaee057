import Metamath.Files.Tree
import Metamath.Report.Issue
import Metamath.Report.Layout

/-!
# Issues as text

An issue is shown with its rule, its place, the source lines it points to and an underline below
the last of them, then its message and a note.
-/

namespace Metamath

/-- The colors of the parts of a text, as codes of a terminal. -/
inductive Ink where
  | error
  | warning
  | info
  | rule
  | file
  | line
  | message
  | note
deriving DecidableEq, Repr

/-- The codes of a color: each is bold. -/
def Ink.codes : Ink → String
  | error => "31;1"
  | warning => "93;1"
  | info => "97;1"
  | rule => "33;1"
  | file => "36;1"
  | line => "94;1"
  | message => "31;1"
  | note => "32;1"

/-- A text in a color, if colors are in use. -/
def paint (color : Bool) (ink : Ink) (bs : Bytes) : Bytes :=
  if color then utf8 ("\x1b[" ++ ink.codes ++ "m") ++ bs ++ utf8 "\x1b[0;22m" else bs

/-- So many spaces. -/
def spaces (n : Nat) : Bytes :=
  List.replicate n 32

/-- Where an issue is shown: the lines, without the indentation they share, and the underline. -/
structure Snippet where
  first : Int
  lines : List Bytes
  /-- Columns before the underline. -/
  offset : Nat
  /-- Columns of the underline. -/
  length : Nat
deriving DecidableEq, Repr

namespace Issue

/-- The place where an issue ends. An issue that ends where it starts, or before, reaches to the
end of the token there. -/
def extent (i : Issue) (lines : List Bytes) : Int × Int :=
  let line := max i.stop.line i.start.line
  if line = i.start.line ∧ i.stop.column ≤ i.start.column then
    (line, Layout.tokenEnd lines i.start.line i.start.column)
  else (line, i.stop.column)

/-- The column before an issue, as a number of 64 bits: the least one is preceded by the
greatest. -/
def columnBefore (i : Issue) : Int :=
  (i.start.column - 1).bmod 0x10000000000000000

/-- The snippet for an issue, if the source has its lines. -/
def snippet? (i : Issue) (source : List Bytes) : Option Snippet :=
  let (lastLine, lastColumn) := i.extent source
  (Layout.lineRange? source i.start.line lastLine).map fun lines =>
    let indent := Layout.commonIndent lines
    let shift : Int := Layout.visualWidth indent
    let before : Int :=
      Layout.visualWidth (Layout.firstBytes (lines.headD []) i.columnBefore)
    let offset := (before - shift).toNat
    let reach : Int := Layout.visualWidth (Layout.firstBytes (lines.getLastD []) lastColumn)
    { first := i.start.line
      lines := lines.map (Layout.removeIndent indent)
      offset
      length := (max (reach - shift - offset) 1).toNat }

/-- The word for a severity in front of the rule. -/
def severityWord (color : Bool) : Severity → Bytes
  | .error => paint color .error (utf8 "error: ")
  | .warning => paint color .warning (utf8 "warning: ")
  | .info => paint color .info (utf8 "info: ")
  | _ => []

/-- The first two lines: severity and rule, then the place. -/
def header (color : Bool) (width : Nat) (i : Issue) : Bytes :=
  let place := if 0 < i.start.line then s!":{i.start.line}:{i.start.column}" else ""
  severityWord color i.severity ++ paint color .rule (utf8 (i.rule ++ "\n")) ++
    paint color .line (spaces width ++ utf8 "--> ") ++
    paint color .file (utf8 (i.filename ++ place ++ "\n"))

/-- The source lines with their numbers, and the underline. -/
def snippetText (color : Bool) (width : Nat) (s : Snippet) : Bytes :=
  let gutter := spaces (width + 1)
  let numbered := s.lines.zipIdx.flatMap fun (line, k) =>
    let number := utf8 (toString (s.first + k))
    paint color .line (spaces (width - number.length) ++ number ++ utf8 " | ") ++ line ++ [10]
  paint color .line (gutter ++ utf8 "|\n") ++ numbered ++
    paint color .line (gutter ++ utf8 "| ") ++ spaces s.offset ++
    paint color .message (List.replicate s.length 0x7e ++ [10])

/-- A line that starts with a word like `note:`. -/
def remark (color : Bool) (gutter : Bytes) (word : String) (text : Bytes) : Bytes :=
  paint color .line (gutter ++ utf8 "= ") ++ paint color .note (utf8 word) ++ text ++ [10]

/-- The issue as text, with the lines of its source. An empty line ends it. -/
def render (color : Bool) (source : List Bytes) (i : Issue) : Bytes :=
  let width := (toString (i.extent source).1).length
  let gutter := spaces (width + 1)
  let snippet := match i.snippet? source with
    | some s => snippetText color width s
    | none => []
  let note := if i.note.isEmpty then [] else remark color gutter "note: " i.note
  let help :=
    if i.rule = "incomplete-proof" then
      remark color gutter "help: "
        (utf8 "unknown steps were skipped; the statement was not checked")
    else []
  i.header color width ++ snippet ++ paint color .line (gutter ++ utf8 "= ") ++
    paint color .message (i.message ++ [10]) ++ note ++ help ++ [10]

end Issue

/-- Issues as text, one after the other. -/
def renderIssues (color : Bool) (source : List Bytes) (issues : List Issue) : Bytes :=
  issues.flatMap (Issue.render color source)

namespace FileTree

/-- The lines of a file. -/
def sourceLines (t : FileTree) (path : String) : Except FileError (List Bytes) :=
  (t.readFile path).map Bytes.lines

/-- The lines of a file to show issues with. A file that cannot be read has none. -/
def shownLines (t : FileTree) (path : String) : List Bytes :=
  (t.sourceLines path).toOption.getD []

end FileTree

namespace Report

/-- The report as text, file by file. -/
def render (r : Report) (t : FileTree) (color : Bool) : Bytes :=
  r.fileNames.flatMap fun name => renderIssues color (t.shownLines name) (r.issuesOf name)

/-- What is printed for a file that was checked again after a change. -/
def renderChange (t : FileTree) (color : Bool) : Except String FileReport → Bytes
  | .error text => utf8 ("error: " ++ text ++ "\n")
  | .ok r => if r.issues.isEmpty then utf8 (r.filename ++ ": ok\n") else render ⟨"", [r]⟩ t color

end Report

end Metamath
