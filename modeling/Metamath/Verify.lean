import Metamath.Files.Opener
import Metamath.Statement.Execute

/-!
# Verification

`verifySource` reads and checks the database in a text, `FileTree.verifyFile` the one in a file.
-/

namespace Metamath

/-- Reads and checks the database in a text, under a name that is used for positions. -/
def verifySource (o : Opener) (name : String) (s : Source) (interrupt : Option Interrupt := none) :
    Outcome :=
  run interrupt (expand o name s)

/-- Reads and checks the database in a file. Included files are looked for in its directory. -/
def FileTree.verifyFile (t : FileTree) (path : String) (interrupt : Option Interrupt := none) :
    Except Failure Outcome :=
  match t.openFile path with
  | .error e => .error (.notOpened path e)
  | .ok s => .ok (verifySource (t.opener (Path.directory path)) path s interrupt)

end Metamath
