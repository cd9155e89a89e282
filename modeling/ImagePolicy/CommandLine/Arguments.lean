/-
# Command-line arguments

Arguments are options, which may have a value, and operands. A value follows its option as the
next argument or, after an equals sign, in the same one. An argument that looks like an option is
no value, except for options that take anything. Two hyphens end the options. Arguments are read
from left to right: the first that is wrong, or that asks for help or the version, settles the
reading.

Key definitions: `CommandLine.OptionSpec`, `CommandLine.Arguments`, `CommandLine.readArguments`.
-/
import ImagePolicy.Text.Split

namespace ImagePolicy
namespace CommandLine

/-- What an option is for, and how often it may be given. -/
inductive OptionKind where
  | flag
  | counted
  | value (isPath : Bool)
  | values (isPath anything : Bool)
  | help
  | version
  deriving DecidableEq, Repr

/-- An option by its long and its short name. -/
structure OptionSpec where
  long : String
  short : Option Char := none
  kind : OptionKind
  deriving DecidableEq, Repr

/-- Why the reading of arguments ends early. -/
inductive Stop where
  | wrong
  | help
  | version
  deriving DecidableEq, Repr

/-- What arguments give: options with their values, in order, and operands. -/
structure Arguments where
  options : List (String × String) := []
  operands : List String := []
  deriving DecidableEq, Repr, Inhabited

namespace OptionKind

/-- Whether an option has a value. -/
def takesValue : OptionKind → Bool
  | .value _ => true
  | .values _ _ => true
  | _ => false

/-- Whether an option may be given again. -/
def repeats : OptionKind → Bool
  | .counted => true
  | .values _ _ => true
  | _ => false

/-- Whether a value may look like an option. -/
def takesAnything : OptionKind → Bool
  | .values _ anything => anything
  | _ => false

/-- Whether a text is a value; a path has characters. -/
def accepts (k : OptionKind) (value : String) : Bool :=
  match k with
  | .value isPath => !(isPath && value = "")
  | .values isPath _ => !(isPath && value = "")
  | _ => true

end OptionKind

namespace Arguments

/-- Whether an option is given. -/
def has (a : Arguments) (name : String) : Bool :=
  (a.options.lookup name).isSome

/-- The value of an option. -/
def value? (a : Arguments) (name : String) : Option String :=
  a.options.lookup name

/-- The values of an option, in order. -/
def values (a : Arguments) (name : String) : List String :=
  a.options.filterMap fun (n, v) => if n = name then some v else none

/-- Adds an option with its value. -/
def addOption (a : Arguments) (o : OptionSpec) (value : String) : Except Stop Arguments :=
  match o.kind with
  | .help => .error .help
  | .version => .error .version
  | k =>
    if !k.accepts value || (a.has o.long && !k.repeats) then .error .wrong
    else .ok { a with options := a.options ++ [(o.long, value)] }

/-- Adds operands, of which there may be so many. They are paths, and a path has characters. -/
def addOperands (a : Arguments) (room : Nat) (operands : List String) : Except Stop Arguments :=
  if (a.operands ++ operands).length ≤ room ∧ !operands.contains "" then
    .ok { a with operands := a.operands ++ operands }
  else .error .wrong

/-- Adds the options that letters stand for; none of them has a value. -/
def addLetters (specs : List OptionSpec) : Arguments → List Char → Except Stop Arguments
  | a, [] => .ok a
  | a, c :: cs =>
    match specs.find? fun o => o.short = some c && !o.kind.takesValue with
    | none => .error .wrong
    | some o =>
      match a.addOption o "" with
      | .ok a => addLetters specs a cs
      | .error stop => .error stop

end Arguments

/-- What an argument looks like. -/
inductive Shape where
  | ending
  | long (name : String) (attached : Option String)
  | letters (cs : List Char)
  | operand

/-- What an argument looks like. A single hyphen is an operand. -/
def shape (argument : String) : Shape :=
  match argument.toList with
  | ['-', '-'] => .ending
  | '-' :: '-' :: cs =>
    match Text.splitFirst '=' cs with
    | some (name, value) => .long (.ofList name) (some (.ofList value))
    | none => .long (.ofList cs) none
  | '-' :: c :: cs => .letters (c :: cs)
  | _ => .operand

/-- Whether an argument may be the value of the option before it. -/
def mayFollow (o : OptionSpec) (argument : String) : Bool :=
  o.kind.takesAnything ||
    match shape argument with
    | .operand => true
    | _ => false

/-- Reads arguments behind those already read, with room for so many operands. -/
def readArguments (specs : List OptionSpec) (room : Nat) :
    Arguments → List String → Except Stop Arguments
  | a, [] => .ok a
  | a, argument :: rest =>
    match shape argument with
    | .ending => a.addOperands room rest
    | .operand =>
      match a.addOperands room [argument] with
      | .ok a => readArguments specs room a rest
      | .error stop => .error stop
    | .letters cs =>
      match a.addLetters specs cs with
      | .ok a => readArguments specs room a rest
      | .error stop => .error stop
    | .long name attached =>
      match specs.find? fun o => o.long = name with
      | none => .error .wrong
      | some o =>
        match o.kind.takesValue, attached, rest with
        | false, some _, _ => .error .wrong
        | false, none, rest =>
          match a.addOption o "" with
          | .ok a => readArguments specs room a rest
          | .error stop => .error stop
        | true, some value, rest =>
          match a.addOption o value with
          | .ok a => readArguments specs room a rest
          | .error stop => .error stop
        | true, none, [] => .error .wrong
        | true, none, value :: rest =>
          if mayFollow o value then
            match a.addOption o value with
            | .ok a => readArguments specs room a rest
            | .error stop => .error stop
          else .error .wrong
termination_by _ as => as.length

/-- Splits arguments at the first operand, after reading the options before it. -/
def readCommand (specs : List OptionSpec) :
    Arguments → List String → Except Stop (String × List String)
  | _, [] => .error .wrong
  | a, argument :: rest =>
    match shape argument with
    | .ending => .error .wrong
    | .operand => .ok (argument, rest)
    | .letters cs =>
      match a.addLetters specs cs with
      | .ok a => readCommand specs a rest
      | .error stop => .error stop
    | .long name attached =>
      match specs.find? fun o => o.long = name && !o.kind.takesValue, attached with
      | some o, none =>
        match a.addOption o "" with
        | .ok a => readCommand specs a rest
        | .error stop => .error stop
      | _, _ => .error .wrong

end CommandLine
end ImagePolicy
