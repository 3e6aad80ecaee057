import Metamath.Yaml.Property

/-!
# Streams of tokens

A `Stream` hands out the tokens of a document one by one. A key of a mapping is only known as such
by the `:` after it, so tokens wait in a queue as long as one of them may turn out to start a key,
and in any case until two more are known. What comes later is not looked at, so a fault there does
no harm.
-/

namespace Metamath.Yaml

/-- A token that may start a key. -/
structure KeyStart where
  /-- Whether it may still start a key. -/
  possible : Bool := false
  /-- Whether it has to, because it stands where the collection has its keys. -/
  required : Bool := false
  /-- How many tokens precede it. -/
  number : Nat := 0
  index : Nat := 0
  line : Nat := 0
  column : Nat := 0
deriving Repr

/-- The tokens of a document from some place on. -/
structure Stream where
  cursor : Cursor
  /-- Tokens that were found and not taken. -/
  queue : List Token := [.streamStart]
  /-- How many tokens were taken. -/
  taken : Nat := 0
  /-- The columns of the open block collections, the innermost first. -/
  indents : List Nat := []
  /-- For each open flow collection, the innermost first, and for the outermost level, the last
  token there that could start a key. -/
  keys : List KeyStart := [{}]
  /-- The tokens that are held back, by their number, and their level. -/
  held : List (Nat × Nat) := []
  /-- Whether a key may start here. -/
  keyAllowed : Bool := true
deriving Repr

namespace Stream

/-- The stream of a document. -/
def start (s : Source) : Stream :=
  { cursor := .start s }

/-- Whether a flow collection is open. -/
def inFlow (s : Stream) : Bool :=
  !(s.keys.drop 1).isEmpty

/-- How many flow collections are open. -/
def level (s : Stream) : Nat :=
  s.keys.length - 1

/-- The number of the next token. -/
def next (s : Stream) : Nat :=
  s.taken + s.queue.length

/-- The key start at the innermost level. -/
def key (s : Stream) : KeyStart :=
  s.keys.headD {}

/-- The stream with another key start at the innermost level. -/
def setKey (s : Stream) (k : KeyStart) : Stream :=
  { s with keys := k :: s.keys.drop 1 }

/-- The stream with a token no longer held back. -/
def letGo (s : Stream) (number : Nat) : Stream :=
  { s with held := s.held.filter fun h => h.1 ≠ number }

/-- The stream with a token at the end of its queue. -/
def push (s : Stream) (t : Token) : Stream :=
  { s with queue := s.queue ++ [t] }

/-- The stream with a token before the one with a number, or at the end if that was taken. -/
def insert (s : Stream) (number : Nat) (t : Token) : Stream :=
  if number < s.taken then s.push t
  else
    let k := number - s.taken
    { s with queue := s.queue.take k ++ t :: s.queue.drop k }

/-- Opens a block collection at a column, if it is further in than those that are open. Its token
comes before the one with a number. -/
def indent (s : Stream) (column number : Nat) (t : Token) : Stream :=
  if s.inFlow || s.indents.head?.any (column ≤ ·) then s
  else { s.insert number t with indents := column :: s.indents }

/-- Closes the block collections further in than a column. -/
def dedent (s : Stream) (column : Option Nat) : Stream :=
  if s.inFlow then s
  else
    let inner := s.indents.takeWhile fun i => column.all (· < i)
    { s with
      indents := s.indents.drop inner.length
      queue := s.queue ++ inner.map fun _ => .blockEnd }

/-- How many collections may be open. -/
def maxDepth : Nat := 10000

/-- How far a `:` may be from the start of its key. -/
def keyReach : Nat := 1024

/-- Whether a `:` here would still belong to a key start. The failure is a key that is required. -/
def reaches? (s : Stream) (k : KeyStart) : Option Bool :=
  if !k.possible then some false
  else if k.line < s.cursor.line || k.index + keyReach < s.cursor.index then
    if k.required then none else some false
  else some true

end Stream

/-- Something that changes a stream, or fails. -/
abbrev Lex := StateT Stream Option

namespace Lex

/-- Moves the cursor of a stream. -/
def scan {α : Type} (a : Scan α) : Lex α := do
  let s ← get
  match a s.cursor with
  | some (r, cursor) =>
    set { s with cursor }
    return r
  | none => failure

/-! ## Keys -/

/-- Gives up the key start at the innermost level. -/
def dropKey : Lex Unit := do
  let s ← get
  if s.key.possible then
    if s.key.required then failure
    set ((s.setKey { s.key with possible := false }).letGo s.key.number)

/-- Notes that the next token may start a key. -/
def saveKey : Lex Unit := do
  let s ← get
  if s.keyAllowed then
    let c := s.cursor
    let k : KeyStart :=
      { possible := true, required := !s.inFlow && s.indents.head? == some c.column
        number := s.next, index := c.index, line := c.line, column := c.column }
    dropKey
    modify fun s => { s.setKey k with held := (k.number, s.level) :: s.held }

/-- Says whether a key may start next. -/
def allowKey (allowed : Bool) : Lex Unit :=
  modify fun s => { s with keyAllowed := allowed }

/-! ## Blanks between tokens -/

/-- Moves to the next token. Tabs stand only where no key may start. -/
def toToken : Nat → Lex Unit
  | 0 => return
  | n + 1 => do
    scan (Scan.need 1)
    let c := (← get).cursor
    if c.column == 0 && c.marked then scan Scan.skip
    scan (Scan.need 1)
    let s ← get
    let tabs := s.inFlow || !s.keyAllowed
    let _ ← scan (Scan.takeWhile fun c => c == ' ' || (tabs && c == '\t'))
    if (← scan (Scan.peek 0)) == some '#' then scan Scan.comments
    if (← scan (Scan.peek 0)).any isBreak then
      scan Scan.endOfLine
      if !(← get).inFlow then allowKey true
      toToken n

/-! ## Tokens -/

/-- Finds a token of so many characters. -/
def sign (t : Token) (length : Nat) : Lex Unit := do
  for _ in List.range length do
    scan Scan.skip
  modify (·.push t)

/-- Leaves all block collections, and allows no key. -/
def leaveBlocks : Lex Unit := do
  modify (·.dedent none)
  dropKey
  allowKey false

/-- Finds the end of the text. -/
def streamEnd : Lex Unit := do
  modify fun s =>
    let c := s.cursor
    if c.column = 0 then s else { s with cursor := { c with column := 0, line := c.line + 1 } }
  leaveBlocks
  modify (·.push .streamEnd)

/-- Finds the start of a flow collection. -/
def openFlow (t : Token) : Lex Unit := do
  saveKey
  modify fun s =>
    let c := s.cursor
    let k : KeyStart := { number := s.next, index := c.index, line := c.line, column := c.column }
    { s with keys := k :: s.keys, keyAllowed := true }
  if Stream.maxDepth < (← get).level then failure
  sign t 1

/-- Finds the end of a flow collection. -/
def closeFlow (t : Token) : Lex Unit := do
  dropKey
  modify fun s =>
    let s := if s.inFlow then { s.letGo s.key.number with keys := s.keys.drop 1 } else s
    { s with keyAllowed := false }
  sign t 1

/-- Opens a block collection at the cursor, where a key may start. -/
def openBlock (t : Token) : Lex Unit := do
  let s ← get
  if !s.inFlow then
    if !s.keyAllowed then failure
    set (s.indent s.cursor.column s.next t)
    if Stream.maxDepth < (← get).indents.length then failure

/-- Finds the `:` of an entry. -/
def valueSign : Lex Unit := do
  let s ← get
  match s.reaches? s.key with
  | none => failure
  | some true =>
    let k := s.key
    let s := (s.insert k.number .key).indent k.column k.number .blockMappingStart
    if Stream.maxDepth < s.indents.length then failure
    set { (s.setKey { k with possible := false }).letGo k.number with keyAllowed := false }
  | some false =>
    set (s.setKey { s.key with possible := false })
    openBlock .blockMappingStart
    allowKey (!s.inFlow)
  sign .value 1

/-- Finds a token that may start a key. -/
def property (a : Scan Token) : Lex Unit := do
  saveKey
  allowKey false
  let t ← scan a
  modify (·.push t)

/-- Finds a plain scalar, and says whether its line goes on. -/
def plain : Lex Bool := do
  saveKey
  allowKey false
  let s ← get
  let column := s.indents.head?.elim 0 (· + 1)
  let (text, parted) ← scan (Scan.plain s.inFlow column)
  if parted then allowKey true
  modify (·.push (.scalar text true))
  return !parted

/-- Whether a plain scalar may start with a character that is followed by another. -/
def startsPlain (flow : Bool) (c : Char) (next : Option Char) : Bool :=
  !(isGap (some c) || ['-', '?', ':', ',', '[', ']', '\x7b', '\x7d', '#', '&', '*', '!', '|', '>',
      '\'', '"', '%', '@', '\x60'].contains c) ||
    (c == '-' && !next.any isBlank) ||
    (!flow && (c == '?' || c == ':') && !isGap next)

/-- Finds a token that starts with a character, and says whether a comment may follow on its
line. -/
def token (c : Char) : Lex Bool := do
  let next ← scan (Scan.peek 1)
  let s ← get
  let flow := s.inFlow
  if c == '[' then openFlow .flowSequenceStart; return true
  else if c == '\x7b' then openFlow .flowMappingStart; return true
  else if c == ']' then closeFlow .flowSequenceEnd; return true
  else if c == '\x7d' then closeFlow .flowMappingEnd; return true
  else if c == ',' then
    dropKey
    allowKey true
    sign .flowEntry 1
    return true
  else if c == '-' && isGap next then
    openBlock .blockSequenceStart
    dropKey
    allowKey true
    sign .blockEntry 1
    return false
  else if c == '?' && (flow || isGap next) then
    openBlock .blockMappingStart
    dropKey
    allowKey (!flow)
    sign .key 1
    return true
  else if c == ':' && (flow || isGap next) then valueSign; return true
  else if c == '*' then property (Token.alias <$> Scan.anchorName); return true
  else if c == '&' then property (Token.anchor <$> Scan.anchorName); return true
  else if c == '!' then property Scan.tag; return true
  else if (c == '|' || c == '>') && !flow then
    dropKey
    allowKey true
    let text ← scan (Scan.block (c == '|') s.indents.head?)
    modify (·.push (.scalar text false))
    return false
  else if c == '\'' || c == '"' then
    property ((Token.scalar · false) <$> Scan.quoted c)
    return true
  else if startsPlain flow c next then plain
  else failure

/-- Finds the next token. -/
def find : Lex Unit := do
  scan (Scan.need 1)
  toToken (← get).cursor.limit
  modify fun s => s.dedent (some s.cursor.column)
  scan (Scan.need 4)
  match ← scan (Scan.peek 0) with
  | none => streamEnd
  | some c =>
    if (← get).cursor.column == 0 && c == '%' then
      leaveBlocks
      let t ← scan Scan.directive
      modify (·.push t)
    else if ← scan (Scan.atMark '-') then
      leaveBlocks
      sign .documentStart 3
    else if ← scan (Scan.atMark '.') then
      leaveBlocks
      sign .documentEnd 3
    else if ← token c then scan Scan.lineComment

/-- Finds tokens until the first one can be taken. -/
def fill : Nat → Lex Unit
  | 0 => failure
  | n + 1 => do
    let s ← get
    let waits? : Option Bool :=
      if s.queue.length ≤ 2 then some true
      else match s.held.lookup s.taken with
        | none => some false
        | some level =>
          match s.keys.reverse[level]? with
          | none => some false
          | some k => s.reaches? k
    match waits? with
    | none => failure
    | some false => return
    | some true =>
      find
      fill n

/-- The first token, which is not taken. -/
def peek : Lex Token := do
  fill (← get).cursor.limit
  return (← get).queue.headD .streamEnd

/-- Takes the first token. -/
def take : Lex Unit :=
  modify fun s => { s with queue := s.queue.drop 1, taken := s.taken + 1 }

end Lex

end Metamath.Yaml
