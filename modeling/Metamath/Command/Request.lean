import Metamath.Command.Flags

/-!
# Requests

A `Request` is what a command line asks for. The name of a command may stand behind flags that all
commands share; without one, all arguments belong to the command `bare`.
-/

namespace Metamath.Command

/-- A command. -/
inductive Verb where
  /-- Checks paths, with no flags of its own. -/
  | bare
  | verify
  | stats
  | init
  | help
deriving DecidableEq, Repr

namespace Verb

/-- The command with a name. -/
def ofName? (name : String) : Option Verb :=
  match name with
  | "verify" => some verify
  | "stats" => some stats
  | "init" => some init
  | "help" => some help
  | _ => none

/-- The flags of a command. -/
def flags : Verb → List Flag
  | verify => Flag.shared ++ [.ignoredRules, .ignoredPaths, .json, .output, .workers, .help]
  | stats => Flag.shared ++ [.json, .help]
  | _ => Flag.shared ++ [.help]

end Verb

/-! ## The name of a command -/

/-- Whether an argument looks like a flag. -/
def looksLikeFlag : List Char → Bool
  | '-' :: '-' :: cs => !cs.isEmpty
  | '-' :: cs => !cs.isEmpty
  | _ => false

/-- Whether an argument is a flag without its value, so that the next one is taken for it. All flags
but the shared switches are taken to have a value. -/
def expectsValue (arg : List Char) : Bool :=
  !arg.contains '=' &&
    match arg with
    | '-' :: '-' :: name => Flag.shared.all fun f => !(f.isSwitch && f.name.toList == name)
    | ['-', c] =>
      c.toNat < 0x80 && Flag.shared.all fun f => !(f.isSwitch && f.letter? == some c)
    | _ => false

/-- Finds the name of a command: the arguments before it, the command and the arguments after it.
`value` says whether the first argument is taken for the value of a flag. A flag without a value is
never taken for one. -/
def findVerb? (value : Bool) : List String → Option (List String × Verb × List String)
  | [] => none
  | arg :: args =>
    if expectsValue arg.toList then (findVerb? true args).map fun p => (arg :: p.1, p.2)
    else if value || looksLikeFlag arg.toList then
      (findVerb? false args).map fun p => (arg :: p.1, p.2)
    else (Verb.ofName? arg).map fun v => ([], v, args)

/-! ## Requests -/

/-- What a command line asks for. -/
structure Request where
  verb : Verb
  options : Options
  paths : List String
deriving DecidableEq, Repr

/-- Reads a command line. It fails if a flag is unknown or has no proper value. -/
def Request.read? (args : List String) : Option Request := do
  match findVerb? false args with
  | none =>
    let p ← readArguments? Verb.bare.flags {} args
    return ⟨.bare, p.1, p.2⟩
  | some (before, verb, after) =>
    let shared ← readArguments? Flag.shared {} before
    let p ← readArguments? verb.flags shared.1 after
    return ⟨verb, p.1, p.2⟩

end Metamath.Command
