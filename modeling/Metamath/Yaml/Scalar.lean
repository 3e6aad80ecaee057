import Metamath.Number.Integer
import Metamath.Yaml.Cursor

/-!
# Scalars

How the texts in a document are read: plain, between quotes, or as a block of lines. In the first
two a line break between words stands for a space, and further ones for themselves.
-/

namespace Metamath.Yaml

/-! ## Gaps between words -/

/-- What was found between two words: the blanks on the line of the first one or, where the line
ends, its line break and those that follow. -/
structure Gap where
  blanks : List Char := []
  parted : Bool := false
  first : List Char := []
  others : List Char := []
deriving Repr

/-- What a gap stands for. -/
def Gap.text (g : Gap) : List Char :=
  if g.parted then
    if g.first == ['\n'] then if g.others.isEmpty then [' '] else g.others
    else g.first ++ g.others
  else g.blanks

namespace Scan

/-- The gap at the cursor, after a part of it. A tab may not stand before a column. -/
def gap (column : Nat) (g : Gap) : Nat → Scan Gap
  | 0 => return g
  | n + 1 => do
    match ← peek 0 with
    | none => return g
    | some c =>
      if isBlank c then
        if g.parted && c == '\t' && (← Scan.column) < column then failure
        step
        gap column (if g.parted then g else { g with blanks := g.blanks ++ [c] }) n
      else if isBreak c then
        need 2
        let b ← lineBreak
        need 1
        gap column
          (if g.parted then { g with others := g.others ++ b }
            else { parted := true, first := b }) n
      else return g

/-! ## Plain scalars -/

/-- Whether a plain scalar ends before a character, in a flow collection or outside, that is
followed by another. -/
def endsPlain (flow : Bool) (c : Char) (next : Option Char) : Bool :=
  (c == ':' && isGap next) || (flow && [',', '?', '[', ']', '\x7b', '\x7d'].contains c)

/-- The next word of a plain scalar, after a gap. Both what was read, the last character first, and
what is left of the gap are given. -/
def plainWord (flow : Bool) (acc : List Char) (g : Gap) : Nat → Scan (List Char × Gap)
  | 0 => return (acc, g)
  | n + 1 => do
    match ← peek 0 with
    | none => return (acc, g)
    | some c =>
      if isGap (some c) || endsPlain flow c (← peek 1) then return (acc, g)
      skip
      need 2
      plainWord flow (c :: (g.text.reverse ++ acc)) {} n

/-- The rest of a plain scalar, and whether a line ended after it. Outside of flow collections, a
line that starts before a column does not belong to it. -/
def plainRest (flow : Bool) (column : Nat) (acc : List Char) (g : Gap) :
    Nat → Scan (List Char × Bool)
  | 0 => return (acc.reverse, g.parted)
  | n + 1 => do
    need 4
    if (← atDocumentMark) || (← peek 0) == some '#' then return (acc.reverse, g.parted)
    let (acc, g) ← plainWord flow acc g (← get).limit
    if !isGap (← peek 0) || (← peek 0).isNone then return (acc.reverse, g.parted)
    need 1
    let g ← gap column g (← get).limit
    if !flow && (← Scan.column) < column then return (acc.reverse, g.parted)
    plainRest flow column acc g n

/-- A plain scalar, and whether a line ended after it. -/
def plain (flow : Bool) (column : Nat) : Scan (String × Bool) := do
  let (cs, parted) ← plainRest flow column [] {} (← get).limit
  return (String.ofList cs, parted)

/-! ## Quoted scalars -/

/-- What follows the backslash of an escape: the character meant, or the number of hexadecimal
digits of its code. -/
def escaped? : Char → Option (Char ⊕ Nat)
  | '0' => some (.inl '\x00')
  | 'a' => some (.inl '\x07')
  | 'b' => some (.inl '\x08')
  | 't' => some (.inl '\t')
  | '\t' => some (.inl '\t')
  | 'n' => some (.inl '\n')
  | 'v' => some (.inl '\x0b')
  | 'f' => some (.inl '\x0c')
  | 'r' => some (.inl '\r')
  | 'e' => some (.inl '\x1b')
  | ' ' => some (.inl ' ')
  | '"' => some (.inl '"')
  | '\'' => some (.inl '\'')
  | '\\' => some (.inl '\\')
  | 'N' => some (.inl '\u0085')
  | '_' => some (.inl '\u00A0')
  | 'L' => some (.inl '\u2028')
  | 'P' => some (.inl '\u2029')
  | 'x' => some (.inr 2)
  | 'u' => some (.inr 4)
  | 'U' => some (.inr 8)
  | _ => none

/-- The character with a code, if there is one. -/
def charOfCode? (n : Nat) : Option Char :=
  if (0xd800 ≤ n && n ≤ 0xdfff) || 0x10ffff < n then none else some (Char.ofNat n)

/-- The value of a hexadecimal digit. -/
def hexValue? (c : Char) : Option Nat :=
  (digit? c).filter (· < 16)

/-- So many hexadecimal digits, after those that gave `n`. -/
def hexCode (n : Nat) : Nat → Scan Nat
  | 0 => return n
  | k + 1 => do
    match ((← peek 0).bind hexValue?) with
    | some d =>
      skip
      hexCode (16 * n + d) k
    | none => failure

/-- An escape, whose backslash is at the cursor. -/
def escape : Scan Char := do
  match ((← peek 1).bind escaped?) with
  | none => failure
  | some (.inl c) =>
    skip
    skip
    return c
  | some (.inr digits) =>
    skip
    skip
    need digits
    match charOfCode? (← hexCode 0 digits) with
    | some c => return c
    | none => failure

/-- The next word of a quoted scalar, and whether it ends in an escaped line break. -/
def quotedWord (quote : Char) (acc : List Char) : Nat → Scan (List Char × Bool)
  | 0 => return (acc, false)
  | n + 1 => do
    let next ← peek 1
    match ← peek 0 with
    | none => return (acc, false)
    | some c =>
      if isGap (some c) then return (acc, false)
      else if c == quote then
        if quote == '\'' && next == some quote then
          skip
          skip
          need 2
          quotedWord quote (c :: acc) n
        else return (acc, false)
      else if quote == '"' && c == '\\' then
        if next.any isBreak then
          need 3
          skip
          let _ ← lineBreak
          return (acc, true)
        else
          let e ← escape
          need 2
          quotedWord quote (e :: acc) n
      else
        skip
        need 2
        quotedWord quote (c :: acc) n

/-- The rest of a quoted scalar, after its first quote. -/
def quotedRest (quote : Char) (acc : List Char) : Nat → Scan (List Char)
  | 0 => failure
  | n + 1 => do
    need 4
    if (← atDocumentMark) || (← peek 0).isNone then failure
    let (acc, parted) ← quotedWord quote acc (← get).limit
    need 1
    if (← peek 0) == some quote then
      skip
      return acc.reverse
    let g ← gap 0 { parted } (← get).limit
    quotedRest quote (g.text.reverse ++ acc) n

/-- A scalar between quotes. -/
def quoted (quote : Char) : Scan String := do
  skip
  return String.ofList (← quotedRest quote [] (← get).limit)

/-! ## Block scalars -/

/-- What becomes of the line breaks at the end of a block scalar. -/
inductive Chomp where
  | strip
  | clip
  | keep
deriving DecidableEq, Repr

/-- The sign that says what becomes of the last line breaks. -/
def chomp : Scan Chomp := do
  match ← peek 0 with
  | some '+' => step; return .keep
  | some '-' => step; return .strip
  | _ => return .clip

/-- The digit that says how far a block scalar is indented, or zero if there is none. -/
def indentDigit : Scan Nat := do
  match ← peek 0 with
  | some c =>
    if c == '0' then failure
    else if c.isDigit then
      step
      return c.toNat - '0'.toNat
    else return 0
  | none => return 0

/-- The signs after that of a block scalar: the indentation and what becomes of the last line
breaks, in any order. The comment on their line is passed over too. -/
def blockHeader : Scan (Nat × Chomp) := do
  let early ← chomp
  let indent ← indentDigit
  let ending ← if early == .clip && indent ≠ 0 then chomp else pure early
  let _ ← takeWhile isBlank
  if (← peek 0) == some '#' then restOfLine
  if !isLineEnd (← peek 0) then failure
  endOfLine
  return (indent, ending)

/-- Passes over indentation and empty lines, after such lines, of which the widest was so wide. The
line breaks and the greatest width are given. Zero stands for an indentation that is not known. -/
def emptyLines (indent : Nat) (breaks : List Char) (widest : Nat) :
    Nat → Scan (List Char × Nat)
  | 0 => return (breaks, widest)
  | n + 1 => do
    need 1
    indentation (← get).limit
    let column ← Scan.column
    let widest := max widest column
    if (indent = 0 ∨ column < indent) ∧ (← peek 0) = some '\t' then failure
    if (← peek 0).any isBreak then
      need 2
      emptyLines indent (breaks ++ (← lineBreak)) widest n
    else return (breaks, widest)
where
  indentation : Nat → Scan Unit
    | 0 => return
    | n + 1 => do
      if (indent = 0 ∨ (← Scan.column) < indent) ∧ (← peek 0) = some ' ' then
        step
        indentation n

/-- The lines of a block scalar that are indented so far, after those in `acc`, the last line break
and the empty lines below it. A line that starts with a blank is not joined to others, and `blank`
says whether the last one does. -/
def blockLines (literal : Bool) (indent : Nat) (acc : List Char) (last others : List Char)
    (blank : Bool) : Nat → Scan (List Char × List Char × List Char)
  | 0 => return (acc, last, others)
  | n + 1 => do
    let first ← peek 0
    if (← Scan.column) ≠ indent ∨ first.isNone then return (acc, last, others)
    let starts := first.any isBlank
    let joined := !literal && !blank && !starts && last == ['\n']
    let between := if joined then if others.isEmpty then [' '] else others else last ++ others
    let line ← takeWhile fun c => !isBreak c
    need 2
    let last ← lineBreak
    let (others, _) ← emptyLines indent [] 0 (← get).limit
    blockLines literal indent (acc ++ between ++ line) last others starts n

/-- A block scalar within a collection at a column, or within none. -/
def block (literal : Bool) (parent : Option Nat) : Scan String := do
  skip
  need 1
  let (digit, ending) ← blockHeader
  let given := if digit = 0 then 0 else parent.getD 0 + digit
  let (breaks, widest) ← emptyLines given [] 0 (← get).limit
  let indent :=
    if given = 0 then max (max widest (parent.elim 0 (· + 1))) 1 else given
  need 1
  let (text, last, others) ← blockLines literal indent [] [] breaks false (← get).limit
  return String.ofList (text ++ match ending with
    | .strip => []
    | .clip => last
    | .keep => last ++ others)

end Scan

end Metamath.Yaml
