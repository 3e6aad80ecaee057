import Metamath.Text.Split

/-!
# Byte strings

File contents, source lines and printed reports are byte strings (`Bytes`), since a file may hold
bytes that are no text at all. `utf8` writes a text as bytes and `latin1` reads bytes as
the characters with the same codes.
-/

namespace Metamath

/-- A string of bytes. -/
abbrev Bytes := List UInt8

/-- The UTF-8 bytes of a text. -/
def utf8 (s : String) : Bytes :=
  s.toList.flatMap String.utf8EncodeChar

@[simp] theorem utf8_empty : utf8 "" = [] := by
  simp [utf8]

@[simp] theorem utf8_append (s t : String) : utf8 (s ++ t) = utf8 s ++ utf8 t := by
  simp [utf8]

/-- The text whose characters have the codes of the bytes. -/
def latin1 (bs : Bytes) : String :=
  String.ofList (bs.map fun b => Char.ofNat b.toNat)

@[simp] theorem latin1_nil : latin1 [] = "" := rfl

@[simp] theorem toList_latin1 (bs : Bytes) :
    (latin1 bs).toList = bs.map fun b => Char.ofNat b.toNat := by
  simp [latin1]

/-- The lines of a byte string: a line feed ends a line, and what follows the last one is a line
too. -/
def Bytes.lines (bs : Bytes) : List Bytes :=
  Text.splitWhere (· == 10) bs

end Metamath
