import Metamath.Text.Quoted
import Metamath.Text.Utf8

/-!
# JSON text

JSON values as they are printed: over several lines, with two spaces for each level. A value is a
function from its level to its text. In strings the signs `<`, `>`, `&` and the two line separators
of Unicode are escaped, and a byte that is no character becomes an escaped replacement character.
-/

namespace Metamath.Text

/-- A JSON value, as the text it has at a level. -/
abbrev JsonText := Nat → Bytes

namespace JsonText

/-- One character inside a JSON string. -/
def escapeGlyph (g : Glyph) : Bytes :=
  match g.code? with
  | none => utf8 "\\ufffd"
  | some 0x22 => utf8 "\\\""
  | some 0x5c => utf8 "\\\\"
  | some 8 => utf8 "\\b"
  | some 9 => utf8 "\\t"
  | some 10 => utf8 "\\n"
  | some 12 => utf8 "\\f"
  | some 13 => utf8 "\\r"
  | some code =>
    if code < 0x20 ∨ code = 0x3c ∨ code = 0x3e ∨ code = 0x26 ∨ code = 0x2028 ∨ code = 0x2029 then
      utf8 ("\\u" ++ hex 4 code)
    else g.bytes

/-- A string between quotes. -/
def quoted (bs : Bytes) : Bytes :=
  utf8 "\"" ++ (glyphs bs).flatMap escapeGlyph ++ utf8 "\""

/-- The start of a line at a level. -/
def newline (level : Nat) : Bytes :=
  10 :: List.replicate (2 * level) 32

/-- Values between brackets, one on a line. -/
def block (opening closing : String) (items : List JsonText) : JsonText := fun level =>
  let lines := items.map fun item => newline (level + 1) ++ item (level + 1)
  utf8 opening ++ [44].intercalate lines ++
    (if items.isEmpty then [] else newline level) ++ utf8 closing

/-- The value `null`. -/
def null : JsonText := fun _ => utf8 "null"

/-- A number. -/
def number (n : Int) : JsonText := fun _ => utf8 (toString n)

/-- A string. -/
def string (bs : Bytes) : JsonText := fun _ => quoted bs

/-- An array. -/
def array (items : List JsonText) : JsonText :=
  block "[" "]" items

/-- An array, or `null` in place of an empty one. -/
def arrayOrNull (items : List JsonText) : JsonText :=
  if items.isEmpty then null else array items

/-- An object, its members in the given order. -/
def object (members : List (String × JsonText)) : JsonText :=
  block "\x7b" "\x7d" (members.map fun (name, value) => fun level =>
    quoted (utf8 name) ++ utf8 ": " ++ value level)

/-- The text of a whole document, which ends with a line feed. -/
def document (value : JsonText) : Bytes :=
  value 0 ++ [10]

end JsonText

end Metamath.Text
