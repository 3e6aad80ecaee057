import Metamath.Files.Tree
import Metamath.Report.Severity
import Metamath.Yaml.Decode
import Metamath.Yaml.KeyOrder
import Metamath.Yaml.Written

/-!
# Settings

A settings file gives a name, severities of rules and the extensions of database files. What it does
not give keeps its default. `Settings.load` reads such a file and `Settings.save` writes one.
-/

namespace Metamath

/-- What can be set in a file. -/
structure Settings where
  name : String := "mmverify"
  rules : List (String × Severity) := [("incomplete-proof", .warning)]
  extensions : List String := [".mm"]
deriving DecidableEq, Repr

/-- The path of the settings file where no other is given. -/
def Settings.defaultPath : String := ".mmverify.yaml"

/-- Why settings could not be read. -/
inductive SettingsError where
  | file (error : FileError)
  | malformed (path : String)
  | unknownSeverity (path name : String)
deriving DecidableEq, Repr

/-- The error in one line. -/
def SettingsError.text : SettingsError → String
  | file e => e.text
  | malformed path => s!"error parsing {path}: yaml: malformed document"
  | unknownSeverity path name => s!"error parsing {path}: " ++ Severity.unknownName name

/-! ## Reading -/

/-- Why the work on a document ended: it cannot be understood, or a text names no severity. -/
inductive SettingsFault where
  | malformed
  | unknownSeverity (name : String)
deriving DecidableEq, Repr

instance : Yaml.DocumentFault SettingsFault where
  malformed := .malformed

/-- Something that takes settings out of a document. -/
abbrev ReadSettings := Yaml.Decode SettingsFault

namespace Settings

/-- A severity by its name, or else the one that was set before. -/
def readSeverity (old : Severity) (n : Yaml.Node) : ReadSettings Severity := do
  match ← Yaml.Decode.text n with
  | none => return old
  | some name =>
    match Severity.ofName? name with
    | some severity => return severity
    | none => throw (.unknownSeverity name)

/-- The severity of a rule; where none is given it is an error. -/
def readRule (n : Yaml.Node) : ReadSettings Severity :=
  Yaml.Decode.entries n .error fun old key v =>
    if key = "severity" then readSeverity old v else return old

/-- The rules with one of them graded anew. -/
def setRule (rules : List (String × Severity)) (rule : String) (s : Severity) :
    List (String × Severity) :=
  rules.filter (fun r => r.1 ≠ rule) ++ [(rule, s)]

/-- The severities of rules. -/
def readRules (old : List (String × Severity)) (n : Yaml.Node) :
    ReadSettings (List (String × Severity)) :=
  Yaml.Decode.entries n old fun rules rule v => return setRule rules rule (← readRule v)

/-- Sets what an entry of a document says. -/
def readEntry (s : Settings) (key : String) (n : Yaml.Node) : ReadSettings Settings := do
  match key with
  | "name" => return { s with name := (← Yaml.Decode.text n).getD s.name }
  | "rules" => return { s with rules := ← readRules s.rules n }
  | "extensions" => return { s with extensions := ← Yaml.Decode.texts n }
  | _ => return s

/-- The settings in a document, without the defaults. -/
def readNode (n : Yaml.Node) : ReadSettings Settings :=
  Yaml.Decode.entries n { name := "", rules := [], extensions := [] } readEntry

/-- The settings with the defaults in place of what is missing. -/
def withDefaults (s : Settings) : Settings :=
  let base : Settings := {}
  { name := if s.name = "" then base.name else s.name
    rules := s.rules.foldl (fun rules r => setRule rules r.1 r.2) base.rules
    extensions := if s.extensions.isEmpty then base.extensions else s.extensions }

/-- The settings in a tree. -/
def ofNode (n : Yaml.Node) : Except SettingsFault Settings :=
  match (readNode n).run false with
  | .error fault => .error fault
  | .ok (_, true) => .error .malformed
  | .ok (s, false) => .ok s.withDefaults

/-- The settings in the content of a file. -/
def ofBytes (path : String) (content : Bytes) : Except SettingsError Settings :=
  match Yaml.Node.read? content with
  | none => .error (.malformed path)
  | some none => .ok {}
  | some (some node) =>
    match ofNode node with
    | .error .malformed => .error (.malformed path)
    | .error (.unknownSeverity name) => .error (.unknownSeverity path name)
    | .ok settings => .ok settings

/-- Reads a settings file. Where there is none, the defaults hold. -/
def load (t : FileTree) (path : String) : Except SettingsError Settings :=
  if path = "" then .ok {}
  else
    match t.readFile path with
    | .ok content => ofBytes path content
    | .error e =>
      if e.reason = .noSuchFile then .ok {}
      else if e.operation = .readFile then .error (.malformed path)
      else .error (.file e)

/-! ## Writing -/

/-- A rule and its severity as an entry of a document. -/
def ruleText (rule : String) (s : Severity) : String :=
  let key := Yaml.writeScalar 8 rule
  let value := "severity: " ++ Yaml.writeScalar 12 s.name ++ "\n"
  if Yaml.isShortKey rule then "    " ++ key ++ ":\n        " ++ value
  else Yaml.endLine ("    ? " ++ key) ++ "    :   " ++ value

/-- The settings as a document. -/
def document (s : Settings) : String :=
  let rule (key : String) := ruleText key ((s.rules.lookup key).getD .error)
  let rules :=
    if s.rules.isEmpty then " \x7b\x7d\n"
    else "\n" ++ String.join ((Yaml.sortKeys (s.rules.map Prod.fst)).map rule)
  let item (e : String) := Yaml.endLine ("    - " ++ Yaml.writeScalar 6 e)
  let extensions :=
    if s.extensions.isEmpty then " []\n" else "\n" ++ String.join (s.extensions.map item)
  Yaml.endLine ("name: " ++ Yaml.writeScalar 4 s.name) ++ "rules:" ++ rules ++
    "extensions:" ++ extensions

/-- Writes a settings file. -/
def save (s : Settings) (t : FileTree) (path : String) : Except FileError FileTree :=
  t.writeFile path (utf8 s.document)

/-- Writes the defaults to a settings file, and gives its path as well. -/
def init (t : FileTree) (path : String) : Except FileError (String × FileTree) :=
  let path := if path = "" then defaultPath else path
  (save {} t path).map fun t => (path, t)

end Settings

end Metamath
