import Metamath.Yaml.Scalar
import Metamath.Yaml.Token

/-!
# Properties and directives

The anchors and tags that stand before a node, and the directives before a document.
-/

namespace Metamath.Yaml.Scan

/-! ## Anchors -/

/-- The name of an anchor or of an alias, after its sign. -/
def anchorName : Scan String := do
  skip
  need 1
  let name ← takeWhile isNameChar
  let next ← peek 0
  let ends := isGap next || next.any fun c =>
    ['?', ':', ',', ']', '\x7d', '%', '@', '\x60'].contains c
  if name.isEmpty || !ends then failure
  return String.ofList name

/-! ## Tags -/

/-- Whether a character can stand in a tag. -/
def isTagChar (c : Char) : Bool :=
  isNameChar c || [';', '/', '?', ':', '@', '&', '=', '+', '$', ',', '.', '!', '~', '*', '\'', '(',
    ')', '[', ']', '%'].contains c

/-- A byte that is written in hexadecimal after `%`. -/
def tagByte : Scan UInt8 := do
  need 3
  match ← peek 0, (← peek 1).bind hexValue?, (← peek 2).bind hexValue? with
  | some '%', some a, some b =>
    skip
    skip
    skip
    return UInt8.ofNat (16 * a + b)
  | _, _, _ => failure

/-- So many bytes. -/
def tagBytes : Nat → Scan Bytes
  | 0 => return []
  | n + 1 => return (← tagByte) :: (← tagBytes n)

/-- A character that is written as bytes. -/
def tagEscape : Scan Char := do
  let first ← tagByte
  let rest ← tagBytes (sequenceLength first - 1)
  match (Text.firstGlyph first rest).code? with
  | some n => return Char.ofNat n
  | none => failure

/-- The rest of a tag. -/
def tagChars (acc : List Char) : Nat → Scan (List Char)
  | 0 => return acc.reverse
  | n + 1 => do
    match ← peek 0 with
    | some '%' =>
      let c ← tagEscape
      need 1
      tagChars (c :: acc) n
    | some c =>
      if isTagChar c then
        step
        tagChars (c :: acc) n
      else return acc.reverse
    | none => return acc.reverse

/-- What a tag goes on with, after some characters. It may not be empty. -/
def tagText (start : List Char) : Scan String := do
  need 1
  let text ← tagChars [] (← get).limit
  if start.isEmpty && text.isEmpty then failure
  return String.ofList (start.drop 1 ++ text)

/-- The start of a tag: a `!`, a name and perhaps another `!`. -/
def tagHandle : Scan (List Char) := do
  need 1
  if (← peek 0) ≠ some '!' then failure
  step
  let name ← takeWhile isNameChar
  if (← peek 0) == some '!' then
    skip
    return '!' :: name ++ ['!']
  return '!' :: name

/-- A tag. -/
def tag : Scan Token := do
  need 2
  let token ← if (← peek 1) == some '<' then do
      skip
      skip
      let text ← tagText []
      if (← peek 0) ≠ some '>' then failure
      skip
      pure (Token.tag "" text)
    else do
      let handle ← tagHandle
      if 1 < handle.length ∧ handle.getLast? = some '!' then
        pure (Token.tag (String.ofList handle) (← tagText []))
      else do
        let text ← tagText handle
        pure (if text = "" then Token.tag "" (String.ofList handle) else Token.tag "!" text)
  need 1
  if !isGap (← peek 0) then failure
  return token

/-! ## Directives -/

/-- A number of one or two digits. -/
def versionNumber : Scan Nat := do
  let digits ← takeWhile Char.isDigit
  if digits.isEmpty || 2 < digits.length then failure
  return (digits? 10 0 false digits).getD 0

/-- The value of a directive with a name. -/
def directiveValue (name : String) : Scan Token := do
  let _ ← takeWhile isBlank
  if name = "YAML" then
    let major ← versionNumber
    if (← peek 0) ≠ some '.' then failure
    step
    return .version major (← versionNumber)
  else if name = "TAG" then
    let handle ← tagHandle
    if handle ≠ ['!'] ∧ handle.getLast? ≠ some '!' then failure
    need 1
    if !(← peek 0).any isBlank then failure
    let _ ← takeWhile isBlank
    let start ← tagText []
    need 1
    if !isGap (← peek 0) then failure
    return .tagHandle (String.ofList handle) start
  else failure

/-- A directive, up to the end of its line. -/
def directive : Scan Token := do
  skip
  need 1
  let name ← takeWhile isNameChar
  if name.isEmpty || !isGap (← peek 0) then failure
  let token ← directiveValue (String.ofList name)
  let _ ← takeWhile isBlank
  if (← peek 0) == some '#' then restOfLine
  if !isLineEnd (← peek 0) then failure
  endOfLine
  return token

end Metamath.Yaml.Scan
