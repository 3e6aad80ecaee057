import Metamath.Text.Quoted
import Metamath.Yaml.Cursor
import Metamath.Yaml.Meaning

/-!
# Texts as scalars

`writeScalar` writes a text as a scalar. A text of several lines is written as a block of lines, one
that would be taken for something else goes between double quotes, and others stand plain. Where a
text does not bear such a style, it goes between single quotes, and where it does not bear those,
between double quotes.
-/

namespace Metamath.Yaml

/-! ## Texts with another meaning -/

/-- Whether characters are a number whose parts are counted by sixties, like `1:30`. -/
def isSexagesimal (cs : List Char) : Bool :=
  let cs := (sign? cs).2
  let first := cs.takeWhile fun c => c.isDigit || c == '_'
  first.head?.any Char.isDigit && parts false (cs.drop first.length)
where
  /-- Whether there are parts after colons, or were some, and then perhaps a fraction. -/
  parts (some : Bool) : List Char → Bool
    | [] => some
    | ':' :: a :: b :: cs =>
      if a.isDigit && b.isDigit then a < '6' && parts true cs else a.isDigit && parts true (b :: cs)
    | [':', a] => a.isDigit
    | '.' :: cs => some && cs.all fun c => c.isDigit || c == '_'
    | _ => false

/-- Words that older readers take for truth values. -/
def oldBooleans : List String :=
  ["y", "Y", "yes", "Yes", "YES", "on", "On", "ON", "n", "N", "no", "No", "NO", "off", "Off", "OFF"]

/-- Whether a plain scalar with this text is a text for all readers. -/
def isPlainText (s : String) : Bool :=
  Meaning.of s == .text && !isSexagesimal s.toList && !oldBooleans.contains s

/-! ## What a text bears -/

/-- Whether a character is written as it is. Beyond the first plane none is. -/
def isWritten (c : Char) : Bool :=
  let n := c.toNat
  n == 0xa || (0x20 ≤ n && n ≤ 0x7e) || (0xa0 ≤ n && n ≤ 0xfffd && n != 0xfeff)

/-- Whether signs of a plain scalar have another meaning, `before` being the character in front. -/
def hasSigns (before : Option Char) : List Char → Bool
  | [] => false
  | c :: cs =>
    let ends := cs.head?.all isBlank
    let sign := match before with
      | none =>
        ['#', ',', '[', ']', '\x7b', '\x7d', '&', '*', '!', '|', '>', '\'', '"', '%', '@',
          '\x60'].contains c || ((c == '?' || c == ':' || c == '-') && ends)
      | some b => (c == ':' && ends) || (c == '#' && isGap (some b))
    sign || hasSigns (some c) cs

/-- Whether a space stands next to a line break, on the side that is said. -/
def hasSpace (after : Bool) : List Char → Bool
  | a :: b :: cs =>
    (if after then isBreak a && b == ' ' else a == ' ' && isBreak b) || hasSpace after (b :: cs)
  | _ => false

/-- Whether a text holds a character that is only written by its code. -/
def hasSpecial (cs : List Char) : Bool :=
  cs.any fun c => c ≠ '\t' && !isWritten c

/-- Whether a text can go between single quotes. -/
def bearsSingle (cs : List Char) : Bool :=
  !(hasSpace true cs || hasSpace false cs || cs.contains '\t' || hasSpecial cs)

/-- Whether a text can stand plain. -/
def bearsPlain (cs : List Char) : Bool :=
  let outer (c : Option Char) := c.any fun c => c == ' ' || isBreak c
  bearsSingle cs &&
    !(outer cs.head? || outer cs.getLast? || cs.any isBreak || hasSigns none cs ||
      cs.take 3 == ['-', '-', '-'] || cs.take 3 == ['.', '.', '.'])

/-- Whether a text can be a block of lines. -/
def bearsBlock (cs : List Char) : Bool :=
  !(cs.getLast? == some ' ' || hasSpace false cs || hasSpecial cs)

/-! ## Styles -/

/-- A character of a text between double quotes. -/
def escapeDouble (c : Char) : List Char :=
  let code n letter := '\\' :: letter :: (Text.hexDigits n c.toNat).map Char.toUpper
  match c.toNat with
  | 0 => ['\\', '0']
  | 7 => ['\\', 'a']
  | 8 => ['\\', 'b']
  | 9 => ['\\', 't']
  | 10 => ['\\', 'n']
  | 11 => ['\\', 'v']
  | 12 => ['\\', 'f']
  | 13 => ['\\', 'r']
  | 27 => ['\\', 'e']
  | 0x22 => ['\\', '"']
  | 0x5c => ['\\', '\\']
  | 0x85 => ['\\', 'N']
  | 0xa0 => ['\\', '_']
  | 0x2028 => ['\\', 'L']
  | 0x2029 => ['\\', 'P']
  | n =>
    if n < 0x100 then code 2 'x'
    else if n < 0x10000 then code 4 'u'
    else code 8 'U'

/-- A text between double quotes. If it starts with a byte order mark, all of it is escaped. -/
def doubleQuoted (cs : List Char) : List Char :=
  let marked := cs.head? == some byteOrderMark
  let body := cs.flatMap fun c =>
    if marked || !isWritten c || isBreak c || c == '"' || c == '\\' then escapeDouble c else [c]
  '"' :: body ++ ['"']

/-- So many spaces in front of each line but the first. The lines are the given characters with
their line breaks, and `parted` says whether a line just ended. -/
def indented (column : Nat) (parted : Bool) : List Char → List Char
  | [] => []
  | c :: cs =>
    if isBreak c then c :: indented column true cs
    else (if parted then List.replicate column ' ' else []) ++ c :: indented column false cs

/-- A text between single quotes. Lines go on at a column. -/
def singleQuoted (column : Nat) (cs : List Char) : List Char :=
  let body := cs.flatMap fun c => if c = '\'' then ['\'', '\''] else [c]
  '\'' :: indented column false body ++ ['\'']

/-- The digit that says how far a block of lines is indented, where its first line does not show
it. -/
def indentHint (cs : List Char) : List Char :=
  if cs.head?.any fun c => c == ' ' || isBreak c then ['4'] else []

/-- The sign that says what becomes of the last line breaks of a block. -/
def chompHint (cs : List Char) : List Char :=
  match cs.reverse with
  | [] => ['-']
  | [c] => if isBreak c then ['+'] else ['-']
  | c :: d :: _ => if isBreak c then if isBreak d then ['+'] else [] else ['-']

/-- A text as a block of lines at a column. A line break that the text starts with ends the line of
the signs. -/
def blockLiteral (column : Nat) (cs : List Char) : List Char :=
  '|' :: indentHint cs ++ chompHint cs ++
    (if cs.head?.any isBreak then [] else ['\n']) ++ indented column true cs

/-- A text as a scalar whose further lines stand at a column. -/
def writeScalar (column : Nat) (s : String) : String :=
  let cs := s.toList
  String.ofList <|
    if cs.contains '\n' then
      if bearsBlock cs then blockLiteral column cs else doubleQuoted cs
    else if !isPlainText s then doubleQuoted cs
    else if bearsPlain cs then cs
    else if bearsSingle cs then singleQuoted column cs
    else doubleQuoted cs

/-! ## Keys -/

/-- Whether a text is written as a key in front of its `:`. Others stand after a `?`. -/
def isShortKey (s : String) : Bool :=
  !s.toList.any isBreak && s.utf8ByteSize ≤ 128

/-- Ends the line of a scalar, unless it ends with a line break of its own. -/
def endLine (s : String) : String :=
  if s.toList.getLast?.any isBreak then s else s ++ "\n"

end Metamath.Yaml
