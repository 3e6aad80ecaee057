import Metamath.Text.Blank
import Metamath.Text.Bytes

/-!
# Characters of a byte string

`glyphs` divides a byte string into characters. A well-formed UTF-8 sequence is one character; a
byte that starts none stands alone, as a character without a code point.
-/

namespace Metamath.Text

/-- A character of a byte string: its code point, if it has one, and its bytes. -/
structure Glyph where
  code? : Option Nat
  bytes : Bytes
deriving DecidableEq, Repr

/-- Whether a byte can continue a sequence. -/
def isTail (b : UInt8) : Bool :=
  0x80 ≤ b && b ≤ 0xbf

/-- Whether two bytes can start a sequence of three: no overlong forms and no surrogates. -/
def startsThree (b c : UInt8) : Bool :=
  (b == 0xe0 && 0xa0 ≤ c && c ≤ 0xbf) || (b == 0xed && 0x80 ≤ c && c ≤ 0x9f) ||
    (0xe1 ≤ b && b ≤ 0xef && b != 0xed && isTail c)

/-- Whether two bytes can start a sequence of four: no overlong forms, and nothing above the last
code point. -/
def startsFour (b c : UInt8) : Bool :=
  (b == 0xf0 && 0x90 ≤ c && c ≤ 0xbf) || (b == 0xf4 && 0x80 ≤ c && c ≤ 0x8f) ||
    (0xf1 ≤ b && b ≤ 0xf3 && isTail c)

/-- The value of a continuation byte. -/
def tailValue (b : UInt8) : Nat :=
  b.toNat - 0x80

/-- The sequence of two bytes at the start of `b :: rest`, if there is one. -/
def twoByte? (b : UInt8) : Bytes → Option Glyph
  | c :: _ =>
    if 0xc2 ≤ b && b ≤ 0xdf && isTail c then
      some ⟨some ((b.toNat - 0xc0) * 64 + tailValue c), [b, c]⟩
    else none
  | _ => none

/-- The sequence of three bytes at the start of `b :: rest`, if there is one. -/
def threeByte? (b : UInt8) : Bytes → Option Glyph
  | c :: d :: _ =>
    if startsThree b c && isTail d then
      some ⟨some (((b.toNat - 0xe0) * 64 + tailValue c) * 64 + tailValue d), [b, c, d]⟩
    else none
  | _ => none

/-- The sequence of four bytes at the start of `b :: rest`, if there is one. -/
def fourByte? (b : UInt8) : Bytes → Option Glyph
  | c :: d :: e :: _ =>
    if startsFour b c && isTail d && isTail e then
      some ⟨some ((((b.toNat - 0xf0) * 64 + tailValue c) * 64 + tailValue d) * 64 + tailValue e),
        [b, c, d, e]⟩
    else none
  | _ => none

/-- The first character of `b :: rest`. -/
def firstGlyph (b : UInt8) (rest : Bytes) : Glyph :=
  if b < 0x80 then ⟨some b.toNat, [b]⟩
  else (((twoByte? b rest).or (threeByte? b rest)).or (fourByte? b rest)).getD ⟨none, [b]⟩

/-- The characters of a byte string. -/
def glyphs : Bytes → List Glyph
  | [] => []
  | b :: rest =>
    let g := firstGlyph b rest
    g :: glyphs (rest.drop (g.bytes.length - 1))
termination_by bs => bs.length
decreasing_by simp only [List.length_drop, List.length_cons]; omega

/-- Whether a character is white space. -/
def Glyph.isBlank (g : Glyph) : Bool :=
  match g.code? with
  | some code => Text.isBlank code
  | none => false

/-- The blanks that a byte string starts with. -/
def leadingBlanks (bs : Bytes) : Bytes :=
  ((glyphs bs).takeWhile Glyph.isBlank).flatMap Glyph.bytes

/-- Whether a byte string holds nothing but blanks. -/
def isAllBlank (bs : Bytes) : Bool :=
  (glyphs bs).all Glyph.isBlank

end Metamath.Text
