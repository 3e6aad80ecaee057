import Metamath.Yaml.Meaning
import Metamath.Yaml.Node

/-!
# What trees hold

Texts, lists of texts and entries are taken out of the nodes of a document. A node of the wrong
shape is passed over, but spoils the document; some faults end the work at once.
-/

namespace Metamath.Yaml

/-- Something that takes values out of a document. The state says whether the document is spoiled,
and the failure is a fault that ends the work. -/
abbrev Decode (ε : Type) := StateT Bool (Except ε)

/-- A fault of the document itself. -/
class DocumentFault (ε : Type) where
  malformed : ε

/-- The node that a node stands for. -/
def Node.target : Node → Option Node
  | .alias _ n => n
  | n => some n

/-- Whether a node is a mapping, or stands for one. -/
def Node.isMapping (n : Node) : Bool :=
  match n.target with
  | some (.mapping _) => true
  | _ => false

/-- Whether an entry with this key stands for the entries of other mappings. -/
def Node.isMerge : Node → Bool
  | .scalar s plain tag => s == "<<" && ((plain && tag.isNone) || tag == some "!!merge")
  | _ => false

/-- Two keys count as the same if they are scalars or aliases with one text, or collections of one
kind. -/
def Node.keyTag : Node → Nat × String
  | .scalar text _ _ => (0, text)
  | .sequence _ => (1, "")
  | .mapping _ => (2, "")
  | .alias name _ => (3, name)

/-- Whether a key stands twice among some. -/
def hasRepeats (entries : List (Node × Node)) : Bool :=
  let tags := entries.map fun e => e.1.keyTag
  tags.eraseDups.length ≠ tags.length

namespace Decode

variable {ε : Type} [DocumentFault ε] {α : Type}

/-- Spoils the document. -/
def spoil : Decode ε Unit :=
  set true

/-- Ends the work on a document that cannot be understood. -/
def refuse : Decode ε α :=
  throw DocumentFault.malformed

/-- The text of a scalar, unless it means nothing. A tag has to agree with what the scalar means. -/
def scalar (s : String) (plain : Bool) : Option String → Decode ε (Option String)
  | none => return if plain && wordMeaning? s == some .null then none else some s
  | some "!!str" => return some s
  | some "!!merge" => return some s
  | some tag => do
    let m := Meaning.of s
    if tag == m.tag || (tag == "!!float" && m == .integer) then
      return if m == .null then none else some s
    else refuse

/-- The text of a node. Nothing is found where nothing stands. -/
def text (n : Node) : Decode ε (Option String) := do
  match n.target with
  | some (.scalar s plain tag) => scalar s plain tag
  | _ =>
    spoil
    return none

/-- Passes over a node that should mean nothing. -/
def nothing (n : Node) : Decode ε Unit := do
  match n.target with
  | some (.scalar s plain tag) => if (← scalar s plain tag).isSome then spoil
  | _ => spoil

/-- The texts of a sequence. -/
def texts (n : Node) : Decode ε (List String) := do
  match n.target with
  | some (.sequence items) => return (← items.mapM text).filterMap id
  | _ =>
    nothing n
    return []

/-- Takes the entries of a mapping one after the other, those of the mappings that are merged into
it last. The keys in `seen` are passed over, if some are given, and all keys are given back. -/
def foldEntries (f : α → String → Node → Decode ε α) :
    Nat → Option (List String) → Node → α → Decode ε (α × List String)
  | 0, seen, _, a => return (a, seen.getD [])
  | fuel + 1, seen, n, a => do
    match n.target with
    | some (.mapping entries) =>
      if hasRepeats entries then
        spoil
        return (a, seen.getD [])
      let mut result := (a, seen.getD [])
      for (k, v) in entries do
        if !k.isMerge then
          if let some key ← text k then
            if seen.isNone || !result.2.contains key then
              result := (← f result.1 key v, key :: result.2)
      for (k, v) in entries do
        if k.isMerge then
          match v with
          | .sequence items =>
            for item in items do
              if !item.isMapping then refuse
              result ← foldEntries f fuel (some result.2) item result.1
          | _ =>
            if !v.isMapping then refuse
            result ← foldEntries f fuel (some result.2) v result.1
      return result
    | _ =>
      nothing n
      return (a, seen.getD [])

/-- How deep mappings may be merged into each other. -/
def mergeDepth : Nat := 10000

/-- Takes the entries of a mapping one after the other. -/
def entries (n : Node) (a : α) (f : α → String → Node → Decode ε α) : Decode ε α :=
  return (← foldEntries f mergeDepth none n a).1

end Decode

end Metamath.Yaml
