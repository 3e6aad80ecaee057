import Metamath.Command.Value
import Metamath.Settings.Basic

/-!
# Flags

What flags there are, and how arguments set them. `readArguments?` goes through arguments: flags and
paths may be mixed, and `--` ends the flags.
-/

namespace Metamath.Command

/-! ## Flags and options -/

/-- What flags set. -/
structure Options where
  config : String := Settings.defaultPath
  /-- The time limit in nanoseconds. -/
  timeout : Int := 300000000000
  verbose : Bool := false
  noColor : Bool := false
  ignoredRules : String := ""
  ignoredPaths : String := ""
  json : Bool := false
  output : String := ""
  workers : Int := 0
  help : Bool := false
deriving DecidableEq, Repr

/-- A flag. -/
inductive Flag where
  | config
  | timeout
  | verbose
  | noColor
  | ignoredRules
  | ignoredPaths
  | json
  | output
  | workers
  | help
deriving DecidableEq, Repr

namespace Flag

/-- The name of a flag, which stands after `--`. -/
def name : Flag → String
  | config => "config"
  | timeout => "timeout"
  | verbose => "verbose"
  | noColor => "no-color"
  | ignoredRules => "ignore"
  | ignoredPaths => "ignore-paths"
  | json => "json"
  | output => "output"
  | workers => "workers"
  | help => "help"

/-- The letter of a flag, which stands after `-`. -/
def letter? : Flag → Option Char
  | verbose => some 'v'
  | output => some 'o'
  | help => some 'h'
  | _ => none

/-- Whether a flag stands for itself, without a value. -/
def isSwitch : Flag → Bool
  | verbose | noColor | json | help => true
  | _ => false

/-- Sets a flag, if the text is a value for it. -/
def set? (o : Options) (value : String) : Flag → Option Options
  | config => some { o with config := value }
  | timeout => (duration? value).map fun v => { o with timeout := v }
  | verbose => (boolean? value).map fun v => { o with verbose := v }
  | noColor => (boolean? value).map fun v => { o with noColor := v }
  | ignoredRules => some { o with ignoredRules := value }
  | ignoredPaths => some { o with ignoredPaths := value }
  | json => (boolean? value).map fun v => { o with json := v }
  | output => some { o with output := value }
  | workers => (integer? value).map fun v => { o with workers := v }
  | help => (boolean? value).map fun v => { o with help := v }

/-- The flags of all commands. -/
def shared : List Flag :=
  [config, timeout, verbose, noColor]

end Flag

/-! ## Arguments -/

/-- What an argument does. -/
inductive Argument where
  /-- It is a path. -/
  | path
  /-- It ends the flags. -/
  | terminator
  /-- It sets flags. -/
  | options (o : Options)
  /-- It sets flags, and one more to the next argument. -/
  | pending (o : Options) (f : Flag)
deriving DecidableEq, Repr

/-- Reads a flag by its name: the characters after `--`. -/
def readName? (flags : List Flag) (o : Options) (cs : List Char) : Option Argument := do
  let f ← flags.find? fun f => f.name.toList == cs.takeWhile (· != '=')
  match cs.dropWhile (· != '=') with
  | _ :: value => (f.set? o (String.ofList value)).map .options
  | [] => if f.isSwitch then (f.set? o "true").map .options else some (.pending o f)

/-- Reads flags by their letters: the characters after `-`. Switches may be strung together, and
what starts with `test.` is passed over. -/
def readLetters? (flags : List Flag) (o : Options) : List Char → Option Argument
  | [] => some (.options o)
  | 't' :: 'e' :: 's' :: 't' :: '.' :: _ => some (.options o)
  | c :: cs => do
    let f ← flags.find? fun f => f.letter? == some c
    match cs with
    | '=' :: d :: ds => (f.set? o (String.ofList (d :: ds))).map .options
    | cs =>
      if f.isSwitch then readLetters? flags (← f.set? o "true") cs
      else if cs.isEmpty then some (.pending o f)
      else (f.set? o (String.ofList cs)).map .options

/-- Reads an argument. -/
def readArgument? (flags : List Flag) (o : Options) (arg : String) : Option Argument :=
  match arg.toList with
  | ['-', '-'] => some .terminator
  | '-' :: '-' :: cs => readName? flags o cs
  | '-' :: c :: cs => readLetters? flags o (c :: cs)
  | _ => some .path

/-- Reads arguments: the options that they set and the paths among them. -/
def readArguments? (flags : List Flag) (o : Options) :
    List String → Option (Options × List String)
  | [] => some (o, [])
  | arg :: args => do
    match ← readArgument? flags o arg with
    | .path => (readArguments? flags o args).map fun p => (p.1, arg :: p.2)
    | .terminator => some (o, args)
    | .options o => readArguments? flags o args
    | .pending o f =>
      match args with
      | [] => none
      | value :: args => readArguments? flags (← f.set? o value) args

end Metamath.Command
