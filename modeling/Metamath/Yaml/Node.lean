import Metamath.Yaml.Stream

/-!
# Documents as trees

`Node.read?` makes the tree of the first document in a file out of its tokens. Nothing after the
document is looked at, apart from the tokens just behind it.
-/

namespace Metamath.Yaml

/-- A node of a document. -/
inductive Node where
  | scalar (text : String) (plain : Bool) (tag : Option String)
  | sequence (items : List Node)
  | mapping (entries : List (Node × Node))
  /-- A reference to a node with a name. A node that holds itself is left out. -/
  | alias (name : String) (target : Option Node)
deriving Repr, Inhabited

/-- The node that stands where there is none. -/
def Node.null : Node := .scalar "" true none

/-- The tree of a document under construction. -/
structure Builder where
  stream : Stream
  /-- The nodes with a name, the last first. A node that is not complete is left out. -/
  anchors : List (String × Option Node) := []
  /-- What the handles of tags stand for. -/
  handles : List (String × String) := []

/-- Something that builds a part of a tree, or fails. -/
abbrev Build := StateT Builder Option

namespace Build

/-- Uses the stream of tokens. -/
def lex {α : Type} (a : Lex α) : Build α := do
  let b ← get
  match a b.stream with
  | some (r, stream) =>
    set { b with stream }
    return r
  | none => failure

/-- The first token, which is not taken. -/
def peek : Build Token :=
  lex Lex.peek

/-- Takes the first token. -/
def take : Build Unit :=
  lex Lex.take

/-! ## Properties -/

/-- The start of the long form of the tags that are written with `!!`. -/
def commonTag : String := "tag:yaml.org,2002:"

/-- A tag in its short form. -/
def shortTag (tag : String) : String :=
  if tag.startsWith commonTag then "!!" ++ (tag.drop commonTag.length).toString else tag

/-- The tag that a handle and what follows it stand for. -/
def resolveTag (handle suffix : String) : Build String := do
  if handle = "" then return suffix
  match (← get).handles.lookup handle with
  | some start => if start ++ suffix = "" then failure else return start ++ suffix
  | none => failure

/-- The name and the tag of a node, in any order. -/
def properties : Build (Option String × Option String) := do
  match ← peek with
  | .anchor name =>
    take
    match ← peek with
    | .tag handle suffix =>
      take
      return (some name, some (← resolveTag handle suffix))
    | _ => return (some name, none)
  | .tag handle suffix =>
    take
    match ← peek with
    | .anchor name =>
      take
      return (some name, some (← resolveTag handle suffix))
    | _ => return (none, some (← resolveTag handle suffix))
  | _ => return (none, none)

/-- Notes the name of a node. -/
def name (anchor : Option String) (n : Option Node) : Build Unit :=
  match anchor with
  | some a => modify fun b => { b with anchors := (a, n) :: b.anchors }
  | none => return

/-- Builds a collection, whose name is known inside it. -/
def collection (anchor : Option String) (a : Build Node) : Build Node := do
  name anchor none
  let n ← a
  let known := (← get).anchors
  if (anchor.bind fun a => known.lookup a).any Option.isNone then name anchor (some n)
  return n

/-! ## Nodes -/

/-- The tokens before which an entry of a block mapping has no node. -/
def endsBlockNode (t : Token) : Bool :=
  t == .key || t == .value || t == .blockEnd

mutual

/-- A node, which may be a block collection or, where it is said, a block sequence that is not
indented. -/
def node (block flat : Bool) : Nat → Build Node
  | 0 => failure
  | n + 1 => do
    match ← peek with
    | .alias a =>
      take
      match (← get).anchors.lookup a with
      | some target => return .alias a target
      | none => failure
    | _ =>
      let (anchor, tag) ← properties
      match ← peek with
      | .blockEntry =>
        if flat then collection anchor (Node.sequence <$> flatItems n)
        else bare anchor tag
      | .scalar text plain =>
        take
        let tag := (tag.filter (· ≠ "!")).map shortTag
        let s := Node.scalar text plain tag
        name anchor (some s)
        return s
      | .flowSequenceStart =>
        take
        collection anchor (Node.sequence <$> flowItems true n)
      | .flowMappingStart =>
        take
        collection anchor (Node.mapping <$> flowEntries true n)
      | .blockSequenceStart =>
        if block then
          take
          collection anchor (Node.sequence <$> blockItems n)
        else bare anchor tag
      | .blockMappingStart =>
        if block then
          take
          collection anchor (Node.mapping <$> blockEntries n)
        else bare anchor tag
      | _ => bare anchor tag
where
  /-- A node of which there are only the properties. -/
  bare (anchor tag : Option String) : Build Node := do
    if anchor.isNone && tag.isNone then failure
    let s := Node.scalar "" true ((tag.filter (· ≠ "!")).map shortTag)
    name anchor (some s)
    return s

/-- The items of a block sequence. -/
def blockItems : Nat → Build (List Node)
  | 0 => failure
  | n + 1 => do
    match ← peek with
    | .blockEntry =>
      take
      let t ← peek
      let item ← if t == .blockEntry || t == .blockEnd then pure Node.null else node true false n
      return item :: (← blockItems n)
    | .blockEnd =>
      take
      return []
    | _ => failure

/-- The items of a block sequence that is not indented. -/
def flatItems : Nat → Build (List Node)
  | 0 => failure
  | n + 1 => do
    match ← peek with
    | .blockEntry =>
      take
      let t ← peek
      let item ← if t == .blockEntry || endsBlockNode t then pure Node.null else node true false n
      return item :: (← flatItems n)
    | _ => return []

/-- The entries of a block mapping. -/
def blockEntries : Nat → Build (List (Node × Node))
  | 0 => failure
  | n + 1 => do
    match ← peek with
    | .key =>
      take
      let k ← if endsBlockNode (← peek) then pure Node.null else node true true n
      if (← peek) == .value then
        take
        let v ← if endsBlockNode (← peek) then pure Node.null else node true true n
        return (k, v) :: (← blockEntries n)
      else return (k, .null) :: (← blockEntries n)
    | .blockEnd =>
      take
      return []
    | _ => failure

/-- The items of a flow sequence. All but the first come after a comma. -/
def flowItems (first : Bool) : Nat → Build (List Node)
  | 0 => failure
  | n + 1 => do
    let t ← peek
    if t == .flowSequenceEnd then
      take
      return []
    if !first then
      if t == .flowEntry then take else failure
    match ← peek with
    | .flowSequenceEnd =>
      take
      return []
    | .key =>
      take
      let item ← flowPair n
      return item :: (← flowItems false n)
    | _ =>
      let item ← node false false n
      return item :: (← flowItems false n)

/-- A mapping with one entry that stands in a flow sequence without braces. -/
def flowPair : Nat → Build Node
  | 0 => failure
  | n + 1 => do
    let t ← peek
    let k ← if t == .value || t == .flowEntry || t == .flowSequenceEnd then
        take
        pure Node.null
      else node false false n
    if (← peek) == .value then
      take
      let t ← peek
      let v ← if t == .flowEntry || t == .flowSequenceEnd then pure Node.null
        else node false false n
      return .mapping [(k, v)]
    else return .mapping [(k, .null)]

/-- The entries of a flow mapping. All but the first come after a comma. -/
def flowEntries (first : Bool) : Nat → Build (List (Node × Node))
  | 0 => failure
  | n + 1 => do
    let t ← peek
    if t == .flowMappingEnd then
      take
      return []
    if !first then
      if t == .flowEntry then take else failure
    match ← peek with
    | .flowMappingEnd =>
      take
      return []
    | .key =>
      take
      let t ← peek
      let k ← if t == .value || t == .flowEntry || t == .flowMappingEnd then pure Node.null
        else node false false n
      if (← peek) == .value then
        take
        let t ← peek
        let v ← if t == .flowEntry || t == .flowMappingEnd then pure Node.null
          else node false false n
        return (k, v) :: (← flowEntries false n)
      else return (k, .null) :: (← flowEntries false n)
    | _ =>
      let k ← node false false n
      return (k, .null) :: (← flowEntries false n)

end

/-! ## Documents -/

/-- The directives before a document. -/
def directives (versioned : Bool) : Nat → Build Unit
  | 0 => failure
  | n + 1 => do
    match ← peek with
    | .version major minor =>
      if versioned || major ≠ 1 || minor ≠ 1 then failure
      take
      directives true n
    | .tagHandle handle start =>
      if ((← get).handles.lookup handle).isSome then failure
      modify fun b => { b with handles := (handle, start) :: b.handles }
      take
      directives versioned n
    | _ => modify fun b => { b with handles := b.handles ++ [("!", "!"), ("!!", commonTag)] }

/-- The node of a document, if there is a document. -/
def document (fuel : Nat) : Build (Option Node) := do
  take
  match ← peek with
  | .streamEnd => return none
  | .version _ _ | .tagHandle _ _ | .documentStart =>
    directives false fuel
    if (← peek) ≠ .documentStart then failure
    take
    let n ← match ← peek with
      | .version _ _ | .tagHandle _ _ | .documentStart | .documentEnd | .streamEnd => pure .null
      | _ => node true false fuel
    let _ ← peek
    return some n
  | _ =>
    directives false fuel
    let n ← node true false fuel
    let _ ← peek
    return some n

end Build

/-- The first document in the bytes of a file, if there is one. The failure is a document that
cannot be read. -/
def Node.read? (bs : Bytes) : Option (Option Node) :=
  let s := Stream.start (.ofBytes bs)
  (Build.document (8 * s.cursor.limit) { stream := s }).map Prod.fst

end Metamath.Yaml
