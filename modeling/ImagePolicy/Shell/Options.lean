/-
# Options of the shell

The options that change how a script runs, by letter and by name, as `set` and the command line of a
shell take them; and the options that the commands of the shell have of their own.

Key definitions: `Shell.optionNames`, `Shell.takeFlags`, `Shell.commandOptions`, `Shell.say`.
-/
import ImagePolicy.Shell.State
import ImagePolicy.Shell.Tool.Basic

namespace ImagePolicy
namespace Shell

/-- Writes to the output of a command of the shell. -/
def say (text : Octets) : Act Unit := do
  let done ← write 1 text
  if !done then abort (((← get).command.getD []) ++ ": I/O error".toList) 1

/-- A text in quotes that a script reads as the text. -/
def quotedText (o : Octets) : Octets :=
  let run : Octets × Bool → Char → Octets × Bool := fun (done, inDouble) c =>
    if c = '\'' then (done ++ (if inDouble then ['\''] else ['\'', '"', '\'']), true)
    else (done ++ (if inDouble then ['"', '\'', c] else [c]), false)
  let (text, inDouble) := o.foldl run (['\''], false)
  text ++ (if inDouble then ['"'] else ['\''])

/-! ### Options of commands -/

/-- The options in front of the arguments of a command of the shell, and what follows them. -/
def commandOptions (known : String) : List Octets → Act (Options × List Octets)
  | [] => return ([], [])
  | a :: as => do
    match a with
    | ['-', '-'] => return ([], as)
    | '-' :: c :: cs =>
      match readLetters ⟨known, []⟩ as.head? (c :: cs) with
      | .ok (o, false) =>
        let (more, rest) ← commandOptions known as
        return (o ++ more, rest)
      | .ok (o, true) =>
        match as with
        | _ :: as =>
          let (more, rest) ← commandOptions known as
          return (o ++ more, rest)
        | [] => return (o, [])
      | .error _ =>
        match (c :: cs).find? fun c => (OptionNames.takesValue? ⟨known, []⟩ c).isNone with
        | some c => abort ("Illegal option -".toList ++ [c])
        | none => abort ("No arg for -".toList ++ [c] ++ " option".toList)
    | a => return ([], a :: as)

/-! ### Options of the shell -/

/-- The names of the options, each with its letter if it has one. -/
def optionNames : List (String × Option Char) :=
  [("errexit", 'e'), ("noglob", 'f'), ("ignoreeof", 'I'), ("interactive", 'i'), ("monitor", 'm'),
    ("noexec", 'n'), ("stdin", 's'), ("xtrace", 'x'), ("verbose", 'v'), ("vi", 'V'),
    ("emacs", 'E'), ("noclobber", 'C'), ("allexport", 'a'), ("notify", 'b'),
    ("nounset", 'u'), ("privileged", 'p')].map (fun (n, c) => (n, some c)) ++
    [("nolog", none), ("debug", none)]

/-- Sets an option or takes it back. -/
def setOption (letter : Char) (on : Bool) : Act Unit := do
  if !optionLetters.contains letter then abort ("Illegal option -".toList ++ [letter])
  else modify fun s =>
    let others := s.options.filter (· ≠ letter)
    { s with options := if on then letter :: others else others }

/-- Tells which options are set, in words or as commands that set them. -/
def tellOptions (inWords : Bool) : Act Unit := do
  let s ← get
  let isOn : Option Char → Bool := fun c => c.any s.options.contains
  let line : String × Option Char → Octets := fun (name, c) =>
    if inWords then
      name.toList ++ List.replicate (16 - name.length) ' ' ++
        (if isOn c then "on" else "off").toList
    else "set ".toList ++ (if isOn c then "-o " else "+o ").toList ++ name.toList
  say ((if inWords then "Current option settings\n".toList else []) ++
    Octets.unlines (optionNames.map line))

/-- Sets an option by its name, or tells the options if there is none. -/
def setNamedOption (name : Option Octets) (on : Bool) : Act Unit := do
  match name with
  | none => tellOptions on
  | some name =>
    match optionNames.lookup (String.ofList name) with
    | some (some letter) => setOption letter on
    | some none => return ()
    | none =>
      abort ("Illegal option ".toList ++ (if on then "-o ".toList else "+o ".toList) ++ name)

/-- Takes the letters of an argument, which may use the next argument. -/
def takeLetters (atStart on : Bool) : Octets → List Octets → Act (Bool × List Octets)
  | [], as => return (false, as)
  | c :: cs, as => do
    if c = 'c' ∧ atStart then
      let (_, as) ← takeLetters atStart on cs as
      return (true, as)
    else if c = 'l' ∧ atStart then takeLetters atStart on cs as
    else if c = 'o' then
      setNamedOption as.head? on
      takeLetters atStart on cs as.tail
    else
      setOption c on
      takeLetters atStart on cs as

/-- What comes of options: whether a script is given as an argument, whether operands are, and the
arguments left. -/
structure Flags where
  hasScript : Bool
  setsOperands : Bool
  rest : List Octets

/-- Takes the options in front of arguments, so many at most. -/
def takeFlagsOf (atStart : Bool) : Nat → List Octets → Act Flags
  | 0, as => return ⟨false, !as.isEmpty, as⟩
  | _, [] => return ⟨false, false, []⟩
  | fuel + 1, a :: as => do
    match a with
    | ['-'] =>
      if !atStart then
        setOption 'x' false
        setOption 'v' false
      return ⟨false, !as.isEmpty, as⟩
    | ['-', '-'] => return ⟨false, true, as⟩
    | sign :: letters =>
      if sign = '-' ∨ sign = '+' then
        let (hasScript, as) ← takeLetters atStart (sign = '-') letters as
        let f ← takeFlagsOf atStart fuel as
        return { f with hasScript := hasScript || f.hasScript }
      else return ⟨false, true, a :: as⟩
    | [] => return ⟨false, true, a :: as⟩

/-- Takes the options in front of arguments. -/
def takeFlags (atStart : Bool) (arguments : List Octets) : Act Flags :=
  takeFlagsOf atStart arguments.length arguments

end Shell
end ImagePolicy
