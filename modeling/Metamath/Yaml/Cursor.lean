import Metamath.Yaml.Source

/-!
# Places in a document

A `Cursor` is a place in a document: what follows it, how many characters and lines precede it, and
its column. Characters are made out when they are needed, which fails where the text is broken.
-/

namespace Metamath.Yaml

/-! ## Characters -/

/-- The byte order mark. -/
def byteOrderMark : Char := '\uFEFF'

/-- Whether a character is a space or a tab. -/
def isBlank (c : Char) : Bool :=
  c == ' ' || c == '\t'

/-- Whether a character ends a line. -/
def isBreak (c : Char) : Bool :=
  c == '\r' || c == '\n' || c == '\u0085' || c == '\u2028' || c == '\u2029'

/-- Whether there is a blank, the end of a line or the end of the text. -/
def isGap : Option Char → Bool
  | some c => isBlank c || isBreak c
  | none => true

/-- Whether there is the end of a line or of the text. -/
def isLineEnd : Option Char → Bool
  | some c => isBreak c
  | none => true

/-- Whether a character can stand in a name. -/
def isNameChar (c : Char) : Bool :=
  c.isAlphanum || c == '_' || c == '-'

/-! ## Cursors -/

/-- A place in a document. -/
structure Cursor where
  /-- The characters at hand. -/
  chars : List Char
  /-- The parts that were not needed yet. -/
  parts : List (List Char)
  /-- Whether the text after the last part is broken. -/
  broken : Bool
  /-- How often the end of the text was needed. -/
  past : Nat := 0
  /-- Whether the characters at hand started with a byte order mark when they were last extended. -/
  marked : Bool := false
  index : Nat := 0
  line : Nat := 0
  column : Nat := 0
  /-- More steps than there are characters. -/
  limit : Nat
deriving Repr

/-- The start of a document. -/
def Cursor.start (s : Source) : Cursor :=
  { chars := [], parts := s.parts, broken := s.broken
    limit := s.parts.foldl (fun n part => n + part.length) 8 }

/-- Something that moves a cursor, or fails. -/
abbrev Scan := StateT Cursor Option

/-- Extends characters by parts until there are enough. The last component says whether there
are. -/
def extend (n : Nat) (cs : List Char) : List (List Char) → List Char × List (List Char) × Bool
  | [] => (cs, [], false)
  | part :: parts =>
    if n ≤ (cs ++ part).length then (cs ++ part, parts, true) else extend n (cs ++ part) parts

namespace Scan

/-- Makes so many characters available, unless the text ends before. -/
def need (n : Nat) : Scan Unit := do
  let c ← get
  if (c.chars.take n).length + c.past < n then
    let (chars, parts, enough) := extend n c.chars c.parts
    if !enough && c.broken then failure
    set { c with
      chars, parts
      past := if enough then c.past else c.past + 1
      marked := chars.head? == some byteOrderMark }

/-- The character at a distance from the cursor. -/
def peek (k : Nat) : Scan (Option Char) :=
  return (← get).chars[k]?

/-- The column of the cursor. -/
def column : Scan Nat :=
  return (← get).column

/-- Passes over a character that ends no line. -/
def skip : Scan Unit :=
  modify fun c => { c with
    chars := c.chars.drop 1
    past := if c.chars.isEmpty then c.past - 1 else c.past
    index := c.index + 1
    column := c.column + 1 }

/-- Passes over the end of a line, and gives the character it stands for. -/
def lineBreak : Scan (List Char) := do
  let c ← get
  let next (length : Nat) := { c with
    chars := c.chars.drop length, index := c.index + length, line := c.line + 1, column := 0 }
  match c.chars with
  | '\r' :: '\n' :: _ => set (next 2); return ['\n']
  | b :: _ =>
    if isBreak b then
      set (next 1)
      return [if b == '\u2028' || b == '\u2029' then b else '\n']
    else return []
  | [] => return []

/-- Passes over the end of a line, unless the text ends here. -/
def endOfLine : Scan Unit := do
  if (← peek 0).isSome then
    need 2
    let _ ← lineBreak

/-- Passes over a character after which another one is needed. -/
def step : Scan Unit := do
  skip
  need 1

/-- Passes over characters of a kind, and gives them. -/
def takeWhile (p : Char → Bool) : Scan (List Char) := do
  go (← get).limit []
where
  go : Nat → List Char → Scan (List Char)
    | 0, acc => return acc.reverse
    | n + 1, acc => do
      match ← peek 0 with
      | some c => if p c then step; go n (c :: acc) else return acc.reverse
      | none => return acc.reverse

/-- Passes over the rest of a line. -/
def restOfLine : Scan Unit := do
  let _ ← takeWhile fun c => !isBreak c

/-- Whether three equal signs and a gap stand at the start of a line. -/
def atMark (sign : Char) : Scan Bool := do
  let c ← get
  return c.column == 0 && c.chars.take 3 == [sign, sign, sign] && isGap c.chars[3]?

/-- Whether a document starts or ends here. -/
def atDocumentMark : Scan Bool := do
  let starts ← atMark '-'
  let ends ← atMark '.'
  return starts || ends

/-! ## Comments -/

/-- Passes over what stands before a place, lines and all. -/
def skipTo (index : Nat) : Nat → Scan Unit
  | 0 => return
  | n + 1 => do
    need 1
    if (← get).index < index then
      match ← peek 0 with
      | some c => if isBreak c then need 2; let _ ← lineBreak else skip
      | none => skip
      skipTo index n

/-- The distance to the next `#`, from a distance on, if there is nothing before it but characters
of a kind. -/
def commentAhead (between : Char → Bool) (k : Nat) : Nat → Scan (Option Nat)
  | 0 => return none
  | n + 1 => do
    need (k + 1)
    match ← peek k with
    | some c =>
      if c == '#' then return some k
      else if between c then commentAhead between (k + 1) n
      else return none
    | none => return none

/-- How far comments are looked for. -/
def commentReach : Nat := 512

/-- Passes over a comment and over those on the lines that follow, which may be parted by empty
lines. -/
def comments : Scan Unit := do
  go (← get).limit
where
  go : Nat → Scan Unit
    | 0 => return
    | n + 1 => do
      restOfLine
      let ending ← peek 0
      if ending == some '\n' || ending == some '\r' then
        let between (c : Char) := isBlank c || c == '\n' || c == '\r'
        match ← commentAhead between 1 (commentReach - 1) with
        | some k =>
          skipTo ((← get).index + k) (k + 1)
          go n
        | none => return

/-- Passes over a comment that ends the line. -/
def lineComment : Scan Unit := do
  match ← commentAhead isBlank 0 commentReach with
  | some k =>
    skipTo ((← get).index + k) (k + 1)
    restOfLine
  | none => return

end Scan

end Metamath.Yaml
