import Metamath.Text.Utf8

/-!
# The characters of a document

A document is UTF-8 or, after a byte order mark that says so, UTF-16. Its characters are made out in
parts of 512 bytes. A part with bytes that are no text, or with a control character, ends what can
be read, but does no harm as long as nobody reads so far.
-/

namespace Metamath.Yaml

/-- How bytes stand for characters. -/
inductive Encoding where
  | utf8
  | utf16 (littleEndian : Bool)
deriving DecidableEq, Repr

/-- What bytes start with: a character and its number of bytes, a character that is cut off, or no
character at all. -/
inductive Lead where
  | char (c : Char) (length : Nat)
  | cut
  | invalid
deriving DecidableEq, Repr

/-- Whether a code point may stand in a document. -/
def isAllowed (n : Nat) : Bool :=
  n == 0x9 || n == 0xa || n == 0xd || (0x20 ≤ n && n ≤ 0x7e) || n == 0x85 ||
    (0xa0 ≤ n && n ≤ 0xd7ff) || (0xe000 ≤ n && n ≤ 0xfffd) || (0x10000 ≤ n && n ≤ 0x10ffff)

/-- A code point of so many bytes. -/
def Lead.ofCode (n length : Nat) : Lead :=
  if isAllowed n then .char (Char.ofNat n) length else .invalid

/-- How many bytes a UTF-8 sequence has that starts with a byte, or zero if none does. -/
def sequenceLength (b : UInt8) : Nat :=
  if b < 0x80 then 1 else if b < 0xc0 then 0 else if b < 0xe0 then 2 else if b < 0xf0 then 3
  else if b < 0xf8 then 4 else 0

/-- The number that two bytes stand for. -/
def unit16 (littleEndian : Bool) (a b : UInt8) : Nat :=
  if littleEndian then a.toNat + 256 * b.toNat else 256 * a.toNat + b.toNat

/-- What bytes start with. -/
def Encoding.lead : Encoding → Bytes → Lead
  | _, [] => .cut
  | .utf8, b :: rest =>
    if sequenceLength b = 0 then .invalid
    else if rest.length + 1 < sequenceLength b then .cut
    else match (Text.firstGlyph b rest).code? with
      | some n => .ofCode n (sequenceLength b)
      | none => .invalid
  | .utf16 order, a :: b :: rest =>
    let n := unit16 order a b
    if n / 0x400 = 0x37 then .invalid
    else if n / 0x400 = 0x36 then
      match rest with
      | c :: d :: _ =>
        let m := unit16 order c d
        if m / 0x400 = 0x37 then .ofCode (0x10000 + n % 0x400 * 0x400 + m % 0x400) 4 else .invalid
      | _ => .cut
    else .ofCode n 2
  | .utf16 _, [_] => .cut

/-- The characters of a part and the bytes that are left of it. -/
def Encoding.decode (e : Encoding) (bs : Bytes) : Option (List Char × Bytes) :=
  match e.lead bs with
  | .cut => some ([], bs)
  | .invalid => none
  | .char c length =>
    if 0 < length ∧ length ≤ bs.length then
      (e.decode (bs.drop length)).map fun p => (c :: p.1, p.2)
    else none
termination_by bs.length
decreasing_by simp only [List.length_drop]; omega

/-- The characters of a document, in parts. -/
structure Source where
  parts : List (List Char)
  /-- Whether bytes follow that are no text. -/
  broken : Bool
deriving Repr

/-- The size of a part in bytes. -/
def partSize : Nat := 512

/-- The parts of a document. The bytes left of the part before come first, and there is room for so
many more. -/
def Encoding.parts (e : Encoding) (left : Bytes) (room : Nat) : Bytes → Source
  | [] => ⟨[], !left.isEmpty⟩
  | b :: bs =>
    match e.decode (left ++ (b :: bs).take (room + 1)) with
    | none => ⟨[], true⟩
    | some (cs, left) =>
      let rest := e.parts left (partSize - left.length - 1) ((b :: bs).drop (room + 1))
      ⟨cs :: rest.parts, rest.broken⟩
termination_by bs => bs.length
decreasing_by simp only [List.length_drop, List.length_cons]; omega

/-- The characters of the bytes of a document. -/
def Source.ofBytes : Bytes → Source
  | 0xef :: 0xbb :: 0xbf :: rest => Encoding.utf8.parts [] (partSize - 4) rest
  | 0xff :: 0xfe :: rest => (Encoding.utf16 true).parts [] (partSize - 3) rest
  | 0xfe :: 0xff :: rest => (Encoding.utf16 false).parts [] (partSize - 3) rest
  | bs => Encoding.utf8.parts [] (partSize - 1) bs

end Metamath.Yaml
