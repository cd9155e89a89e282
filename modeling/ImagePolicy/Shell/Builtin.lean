/-
# Commands of the shell

The commands that the shell carries out itself, since they change or tell its state. Where one of
the special ones fails, the script ends.

Key definitions: `Shell.Builtin`, `Shell.builtin?`, `Shell.describe`.
-/
import ImagePolicy.Shell.Options
import ImagePolicy.Shell.Condition
import ImagePolicy.Shell.Program

namespace ImagePolicy
namespace Shell

/-- A command of the shell: whether it is special, whether its arguments may assign to variables,
and what it does with its arguments. -/
structure Builtin where
  special : Bool := false
  assigns : Bool := false
  run : Interpreter → (tested : Bool) → List Octets → Act Nat

/-! ### Leaving -/

/-- The status that an argument names, or that of the last command. -/
def statusArgument (usual : State → Nat) (arguments : List Octets) : Act Nat := do
  match arguments with
  | [] => return usual (← get)
  | a :: _ => numberOf a

/-- Ends the shell. In the action of a trap the usual status is that from before the trap. -/
def exitShell (arguments : List Octets) : Act Nat := do
  setStatus (← statusArgument (fun s => s.saved.getD s.status) arguments)
  throw .exit

/-- Returns from a function or a script. -/
def returnFrom (arguments : List Octets) : Act Nat := do
  let status ← statusArgument State.status arguments
  modify fun s => { s with skip := if arguments.isEmpty then .leaving else .returning }
  return status

/-- Leaves loops, or goes on with the next round of one. -/
def leaveLoops (make : Nat → Skip) (arguments : List Octets) : Act Nat := do
  let n ← match arguments with
    | [] => pure 1
    | a :: _ => do
      let n ← numberOf a
      if n = 0 then notNumber a else pure n
  let n := min n (← get).loops
  if 0 < n then modify fun s => { s with skip := make n }
  return 0

/-! ### Variables -/

/-- Sets a variable by an argument that may give it a value, and changes what it is. -/
def declare (change : Variable → Variable) (argument : Octets) : Act Unit := do
  let (name, value) := match Text.splitFirst '=' argument with
    | some (name, value) => (name, some value)
    | none => (argument, none)
  if !isName name then abort (name ++ ": bad variable name".toList)
  else
    match value with
    | some v => setVariable name v
    | none => pure ()
    modify fun s => s.bind name (change (s.binding name))

/-- Tells variables, each as a command that sets it. -/
def tellVariables (front : String) (chosen : Variable → Bool) : Act Unit := do
  let s ← get
  let names := (s.bindings.filter fun b => chosen b.2).mergeSort fun a b => !decide (b.1 < a.1)
  say <| Octets.unlines <| names.map fun (name, v) =>
    front.toList ++ name ++ (match v.value with | some o => '=' :: quotedText o | none => [])

/-- Exports variables, or makes them constant. -/
def declareAll (front : String) (chosen : Variable → Bool) (change : Variable → Variable)
    (arguments : List Octets) : Act Nat := do
  let (o, names) ← commandOptions "p" arguments
  if o.has 'p' || names.isEmpty then tellVariables (front ++ " ") chosen
  else names.forM (declare change)
  return 0

/-- Makes a variable local to the function, with its value if none is given. -/
def makeLocal (argument : Octets) : Act Unit := do
  let name := argument.takeWhile (· ≠ '=')
  if name ≠ ['-'] then
    let s ← get
    match s.locals with
    | none => abort "not in a function".toList
    | some kept =>
      if !isName name then abort (name ++ ": bad variable name".toList)
      else
        set { s with locals := some ((name, s.bindings.lookup name) :: kept) }
        if name.length < argument.length then setVariable name (argument.drop (name.length + 1))
        else modify fun t => t.bind name (t.binding name)

/-- Makes variables local to the function. -/
def makeLocals (arguments : List Octets) : Act Nat := do
  if (← get).locals.isNone then abort "not in a function".toList
  else
    arguments.forM makeLocal
    return 0

/-- Forgets variables or functions. -/
def unset (arguments : List Octets) : Act Nat := do
  let (o, names) ← commandOptions "vf" arguments
  let functions := (o.getLast?.map Prod.fst) = some 'f'
  names.forM fun name => do
    let s ← get
    if functions then set { s with functions := s.functions.filter fun f => f.1 ≠ name }
    else if !isName name then abort (name ++ ": bad variable name".toList)
    else if (s.binding name).constant then abort (name ++ ": is read only".toList)
    else set { s with bindings := s.bindings.filter fun b => b.1 ≠ name }
  return 0

/-- Sets the options and the operands, or tells the variables. -/
def setAll (arguments : List Octets) : Act Nat := do
  if arguments.isEmpty then tellVariables "" fun v => v.value.isSome
  else
    let f ← takeFlags false arguments
    if f.setsOperands then
      modify fun s => { s with operands := f.rest, optionIndex := 1, optionOffset := 0 }
  return 0

/-- Drops operands. -/
def shiftOperands (arguments : List Octets) : Act Nat := do
  let n ← match arguments with
    | [] => pure 1
    | a :: _ => numberOf a
  let s ← get
  if s.operands.length < n then abort "can't shift that many".toList
  else
    set { s with operands := s.operands.drop n, optionIndex := 1, optionOffset := 0 }
    return 0

/-! ### Directories -/

/-- Goes to a directory. -/
def changeDirectory (arguments : List Octets) : Act Nat := do
  let (_, operands) ← commandOptions "LP" arguments
  let (name, told) ← match operands with
    | [] => pure ((← value? "HOME").getD [], false)
    | ['-'] :: _ => pure ((← value? "OLDPWD").getD [], true)
    | name :: _ => pure (name, false)
  let s ← get
  let path := s.resolve? (if name.isEmpty then ['.'] else name)
  match path.filter s.machine.disk.isDirectory with
  | none => abort ("can't cd to ".toList ++ name)
  | some p =>
    let here := nameText (Path.text p)
    set { s with directory := p }
    setVariable "OLDPWD".toList (nameText (Path.text s.directory)) true
    setVariable "PWD".toList here true
    if told then say (here ++ ['\n'])
    return 0

/-! ### Output and input -/

/-- Writes its arguments with a blank between them and their escapes taken. -/
def echoWords (arguments : List Octets) : Act Nat := do
  let (bare, words) : Bool × List Octets := match arguments with
    | ['-', 'n'] :: words => (true, words)
    | words => (false, words)
  let text := Octets.join [' '] words
  let (text, stopped) := unescape (text.length + 1) text
  say (if bare || stopped then text else text ++ ['\n'])
  return 0

/-- The wording of the shell for a misfit. -/
def misfitText : Misfit → String
  | .noNumber => "expected numeric value"
  | .incomplete => "not completely converted"
  | .outOfRange => "Numerical result out of range"

/-- Writes its arguments as a format says. -/
def printWords (arguments : List Octets) : Act Nat := do
  let (_, operands) ← commandOptions "" arguments
  match operands with
  | [] => abort "usage: printf format [arg ...]".toList
  | f :: as =>
    let p := format f as
    p.complaints.forM fun (a, m) => complain (a ++ ": ".toList ++ (misfitText m).toList)
    say p.text
    match p.fault with
    | some e => abort e
    | none => return if p.complaints.isEmpty then 0 else 1

/-- What is found at a path; a program is a file that can be run. -/
def State.fileFacts (s : State) : FileFacts where
  path? := s.resolve?
  node? name :=
    match s.resolve? name with
    | some p =>
      if (programName? s.machine.disk p).isSome then some (.file [0]) else s.machine.disk.node? p
    | none => none
  isRunnable name :=
    match s.resolve? name with
    | some p => (programName? s.machine.disk p).isSome || s.machine.disk.isRunnable p
    | none => false

/-- Tells by its status whether a condition holds. -/
def testWords (bracketed : Bool) (arguments : List Octets) : Act Nat := do
  if bracketed && arguments.getLast? != some [']'] then abort "missing ]".toList
  else
    let words := if bracketed then arguments.dropLast else arguments
    match Condition.holds (← get).fileFacts (words.length + 1) words with
    | .ok b => return if b then 0 else 1
    | .error e => abort e

/-- A line read from a text: its characters, each quoted or not, how many bytes it took, and whether
it was ended. -/
structure ReadLine where
  items : List Item
  taken : Nat
  ended : Bool

/-- Reads a line. Unless it is raw, a backslash quotes the next character and joins lines. -/
def lineOf (raw : Bool) : Octets → ReadLine
  | [] => ⟨[], 0, false⟩
  | '\n' :: _ => ⟨[], 1, true⟩
  | ['\\'] => if raw then ⟨[.char '\\' false true], 1, false⟩ else ⟨[], 1, false⟩
  | '\\' :: c :: o =>
    if raw then
      let r := lineOf raw (c :: o)
      { r with items := .char '\\' false true :: r.items, taken := r.taken + 1 }
    else
      let r := lineOf raw o
      { r with
        items := if c = '\n' then r.items else .char c true true :: r.items
        taken := r.taken + 2 }
  | c :: o =>
    let r := lineOf raw o
    { r with
      items := if c = '\x00' then r.items else .char c false true :: r.items
      taken := r.taken + 1 }

/-- Whether an item is unquoted white space among the separators. -/
def isSeparatingSpace (ifs : Octets) : Item → Bool
  | .char c quoted _ => !quoted && ifs.contains c && (c = ' ' || c = '\t' || c = '\n')
  | _ => false

/-- Whether an item separates fields. -/
def separates (ifs : Octets) : Item → Bool
  | .char c quoted _ => !quoted && ifs.contains c
  | _ => false

/-- The items without the white space that separates at their end. -/
def trimEnd (ifs : Octets) (items : List Item) : List Item :=
  (items.reverse.dropWhile (isSeparatingSpace ifs)).reverse

/-- The rest of a line for the last variable: all of it, but that a single separator at its end goes
if it ends the only field. -/
def lastField (ifs : Octets) (items : List Item) : List Item :=
  let items := trimEnd ifs items
  match items.reverse with
  | c :: before =>
    let before := before.reverse
    if separates ifs c && !before.any (separates ifs) then trimEnd ifs before else items
  | [] => []

/-- The texts of a line for so many variables. -/
def lineFields (ifs : Octets) : Nat → List Item → List Octets
  | 0, _ => []
  | n + 1, items =>
    let items := items.dropWhile (isSeparatingSpace ifs)
    if n = 0 then [itemsText (lastField ifs items)]
    else
      let field := items.takeWhile fun i => !separates ifs i
      let rest := (items.drop field.length).dropWhile (isSeparatingSpace ifs)
      let rest := match rest with
        | i :: more =>
          if separates ifs i && !isSeparatingSpace ifs i then more else rest
        | [] => []
      itemsText field :: lineFields ifs n rest

/-- Reads a line into variables. -/
def readVariables (arguments : List Octets) : Act Nat := do
  let (o, names) ← commandOptions "p:r" arguments
  if names.isEmpty then abort "arg count".toList
  else
    let r := lineOf (o.has 'r') (← unread 0)
    passInput 0 r.taken
    let fields := lineFields (← separators) names.length r.items
    (names.zip fields).forM fun (name, text) => do
      if isName name then setVariable name text
      else abort (name ++ ": bad variable name".toList)
    return if r.ended then 0 else 1

/-! ### Options of scripts -/

/-- What a letter is among the options of a script: unknown, alone, or with an argument. -/
def letterKind (letters : Octets) (c : Char) : Option Bool :=
  match letters with
  | [] => none
  | d :: ':' :: rest => if c = d then some true else letterKind rest c
  | d :: rest => if c = d then some false else letterKind rest c

/-- Forgets a variable. -/
def forget (name : String) : Act Unit :=
  modify fun s => { s with bindings := s.bindings.filter fun b => b.1 ≠ name.toList }

/-- What a step through the options of a script comes to: the letter, and the word and the place in
it to go on from. -/
structure OptionStep where
  letter : Char
  index : Nat
  offset : Nat := 0
  done : Bool := false

/-- Takes an option of a script that is known or not. -/
def takeOption (letters : Octets) (words : List Octets) (index : Nat) (word : Octets)
    (place : Nat) : Act OptionStep := do
  let silent := letters.head? = some ':'
  let c := (word[place]?).getD '?'
  let ends := word.length ≤ place + 1
  let argument := "OPTARG".toList
  match letterKind letters c with
  | none =>
    if silent then setVariable argument [c]
    else
      let _ ← write 2 ("Illegal option -".toList ++ [c, '\n'])
      forget "OPTARG"
    return ⟨'?', if ends then index + 1 else index, if ends then 0 else place + 1, false⟩
  | some false =>
    setVariable argument []
    return ⟨c, if ends then index + 1 else index, if ends then 0 else place + 1, false⟩
  | some true =>
    if !ends then
      setVariable argument (word.drop (place + 1))
      return ⟨c, index + 1, 0, false⟩
    else match words[index]? with
      | some value =>
        setVariable argument value
        return ⟨c, index + 2, 0, false⟩
      | none =>
        if silent then
          setVariable argument [c]
          return ⟨':', index + 1, 0, false⟩
        else
          let _ ← write 2 ("No arg for -".toList ++ c :: " option\n".toList)
          forget "OPTARG"
          return ⟨'?', index + 1, 0, false⟩

/-- Takes the next option of a script. The words are counted from one. -/
def nextOption (letters : Octets) (words : List Octets) : Act OptionStep := do
  let s ← get
  let index := s.optionIndex
  match words[index - 1]? with
  | none => return ⟨'?', index, 0, true⟩
  | some word =>
    if 0 < s.optionOffset ∧ s.optionOffset < word.length then
      takeOption letters words index word s.optionOffset
    else match word with
      | ['-', '-'] => return ⟨'?', index + 1, 0, true⟩
      | '-' :: _ :: _ => takeOption letters words index word 1
      | _ => return ⟨'?', index, 0, true⟩

/-- Sets a variable to the next option of a script. -/
def getOptions (arguments : List Octets) : Act Nat := do
  match arguments with
  | letters :: name :: words =>
    let operands := (← get).operands
    let words := if words.isEmpty then operands else words
    let step ← nextOption letters words
    setVariable "OPTIND".toList (Octets.ofNat step.index)
    if !isName name then abort (name ++ ": bad variable name".toList)
    else
      setVariable name [step.letter]
      modify fun s => { s with optionIndex := step.index, optionOffset := step.offset }
      return if step.done then 1 else 0
  | _ => abort "Usage: getopts optstring var [arg]".toList

/-! ### Aliases -/

/-- The text of an alias as a command that sets it. -/
def aliasText (name value : Octets) : Octets := name ++ '=' :: quotedText value

/-- Sets aliases, or tells them. -/
def setAliases (arguments : List Octets) : Act Nat := do
  if arguments.isEmpty then
    say (Octets.unlines ((← get).aliases.map fun (n, v) => aliasText n v))
    return 0
  else arguments.foldlM (fun status a => do
    match Text.splitFirst '=' (a.drop 1) with
    | some (rest, value) =>
      let name := a.take 1 ++ rest
      modify fun s => { s with aliases := s.aliases.filter (·.1 ≠ name) ++ [(name, value)] }
      return status
    | none =>
      match (← get).aliases.lookup a with
      | some value =>
        say (aliasText a value ++ ['\n'])
        return status
      | none =>
        let _ ← write 2 ("alias: ".toList ++ a ++ " not found\n".toList)
        return 1) 0

/-- Forgets aliases. -/
def forgetAliases (arguments : List Octets) : Act Nat := do
  let (o, names) ← commandOptions "a" arguments
  if o.has 'a' then
    modify fun s => { s with aliases := [] }
    return 0
  else names.foldlM (fun status name => do
    let s ← get
    if s.aliases.any (·.1 = name) then
      set { s with aliases := s.aliases.filter (·.1 ≠ name) }
      return status
    else
      let _ ← write 2 ("unalias: ".toList ++ name ++ " not found\n".toList)
      return 1) 0

/-! ### Signals -/

/-- The signal that the shell knows only by its number. -/
def unnamedSignal : Nat := 16

/-- The name of a signal; zero is the end of the shell. -/
def signalName (n : Nat) : Octets :=
  match (Signal.ofNumber? n).filter fun s => s.number ≠ unnamedSignal with
  | some s => s.name.toList
  | none =>
    let half := Signal.firstFree + 15
    if n = endOfShell then "EXIT".toList
    else if n = Signal.firstFree then "RTMIN".toList
    else if n = Signal.last then "RTMAX".toList
    else if Signal.firstFree < n ∧ n ≤ half then
      "RTMIN+".toList ++ Octets.ofNat (n - Signal.firstFree)
    else if half < n ∧ n < Signal.last then "RTMAX-".toList ++ Octets.ofNat (Signal.last - n)
    else Octets.ofNat n

/-- The number of a signal that a text names. -/
def signalNumber? (text : Octets) : Option Nat :=
  match Octets.toNat? text with
  | some n => if n ≤ Signal.last then some n else none
  | none =>
    (List.range (Signal.last + 1)).find? fun n => signalName n = text.map Char.toUpper

/-- The words on how to send signals. -/
def killUsage : String :=
  "Usage: kill [-s sigspec | -signum | -sigspec] [pid | job]... or\nkill -l [exitstatus]"

/-- Tells the names of signals. -/
def tellSignals (arguments : List Octets) : Act Nat := do
  match arguments with
  | [] =>
    say ("0\n".toList ++ Octets.unlines ((List.range Signal.last).map fun n => signalName (n + 1)))
    return 0
  | a :: _ =>
    let n ← numberOf a
    let n := if 128 < n then n - 128 else n
    if 0 < n ∧ n ≤ Signal.last then
      say (signalName n ++ ['\n'])
      return 0
    else abort ("invalid signal number or exit status: ".toList ++ a)

/-- The process of a job that is named by its place among the jobs. -/
def jobProcess? (s : State) (text : Octets) : Option Nat :=
  let mine := s.machine.jobs.filter fun j => j.parent = s.process
  match text with
  | '%' :: rest =>
    match Octets.toNat? rest with
    | some n => if n = 0 then none else mine[n - 1]?.map Job.process
    | none => mine.getLast?.map Job.process
  | _ => none

/-- Sends a signal to a process; tells whether there is one. -/
def sendTo (signal process : Nat) : Act Bool := do
  let s ← get
  let here : Bool := process = s.process || process = 0
  if here then
    if signal ≠ 0 then meetSignal signal
    return true
  else if s.ancestors.contains process then
    if signal ≠ 0 then
      onMachine fun m => { m with sent := m.sent ++ [⟨process, signal, m.now⟩] }
    return true
  else match s.machine.job? process with
    | some j =>
      if signal ≠ 0 ∧ Signal.effectOf signal ≠ .ignored ∧ s.machine.now < j.ends then
        onMachine fun m => m.endJob j signal
      return true
    | none => return process = 1

/-- Sends a signal to processes. No jobs and no groups of processes can be reached. -/
def sendSignal (signal : Nat) (targets : List Octets) : Act Nat :=
  targets.foldlM (fun status target => do
    let known ← match target with
      | '%' :: _ =>
        if (jobProcess? (← get) target).isSome then pure false
        else abort ("No such job: ".toList ++ target)
      | '-' :: group => do
        let _ ← numberOf group
        pure false
      | target => sendTo signal (← numberOf target)
    if known then return status
    else
      complain "No such process\n".toList
      return 1) 0

/-- Sends signals, or tells their names. -/
def kill (arguments : List Octets) : Act Nat := do
  let usage : Act Nat := abort killUsage.toList
  let send : Nat → List Octets → Act Nat := fun n targets =>
    if targets.isEmpty then usage else sendSignal n targets
  match arguments with
  | [] => usage
  | ('-' :: name) :: targets =>
    match signalNumber? name with
    | some n => send n targets
    | none =>
      let (o, targets) ← commandOptions "ls:" arguments
      let lists := o.has 'l'
      match o.value? 's' with
      | some name =>
        match signalNumber? name with
        | some n => if lists then usage else send n targets
        | none => abort ("invalid signal number or name: ".toList ++ name)
      | none => if lists then tellSignals targets else send 15 targets
  | targets => send 15 targets

/-- Sets the actions of traps, or tells them. -/
def setTraps (arguments : List Octets) : Act Nat := do
  let (_, operands) ← commandOptions "" arguments
  let (action, signals) : Option Octets × List Octets := match operands with
    | [a] => (none, [a])
    | a :: rest =>
      if (Octets.toNat? a).any fun n => n ≤ Signal.last then (none, operands)
      else if a = ['-'] then (none, rest)
      else (some a, rest)
    | [] => (none, [])
  if operands.isEmpty then
    let s ← get
    let traps := s.traps.mergeSort fun a b => decide (a.1 ≤ b.1)
    say <| Octets.unlines <| traps.map fun (n, a) =>
      "trap -- ".toList ++ quotedText a ++ ' ' :: signalName n
    return 0
  else
    let step : Bool → Octets → Act Bool := fun sound name => do
      if !sound then return false
      else match signalNumber? name with
        | some n =>
          modify fun s =>
            let others := s.traps.filter fun t => t.1 ≠ n
            { s with traps := match action with | some a => (n, a) :: others | none => others }
          return true
        | none =>
          let _ ← write 2 ("trap: ".toList ++ name ++ ": bad trap\n".toList)
          return false
    return if ← signals.foldlM step true then 0 else 1

/-! ### Processes -/

/-- Waits for a process; comes to its status. -/
def waitFor (text : Octets) : Act Nat := do
  let s ← get
  let process ← match text with
    | '%' :: _ =>
      match jobProcess? s text with
      | some p => pure p
      | none => abort ("No such job: ".toList ++ text)
    | text => numberOf text
  match (s.machine.job? process).filter fun j => j.parent = s.process with
  | none => return 127
  | some j =>
    onMachine fun m => { m with now := max m.now j.ends }
    takeSignals
    tellEnd j.status

/-- Waits for processes in the background, for all of them if none is named. -/
def wait (arguments : List Octets) : Act Nat := do
  let (_, operands) ← commandOptions "" arguments
  if operands.isEmpty then
    onMachine fun m => { m with now := m.lastEnd }
    takeSignals
    return 0
  else operands.foldlM (fun _ text => waitFor text) 127

/-! ### Names -/

/-- The names of the commands of the shell. -/
def builtinNames : List String :=
  [".", ":", "[", "alias", "bg", "break", "cd", "chdir", "command", "continue", "echo", "eval",
    "exec", "exit", "export", "false", "fg", "getopts", "hash", "jobs", "kill", "local", "printf",
    "pwd", "read", "readonly", "return", "set", "shift", "test", "times", "trap", "true", "type",
    "ulimit", "umask", "unalias", "unset", "wait"]

/-- Tells what a name stands for, in words or as what it would be; the status tells whether it
stands for anything. -/
def describe (inWords : Bool) (name : Octets) : Act Nat := do
  let s ← get
  let known := String.ofList name
  let tell : Octets → String → Act Nat := fun bare words => do
    say ((if inWords then name ++ words.toList else bare) ++ ['\n'])
    return 0
  if reservedWords.contains known then tell name " is a shell keyword"
  else match s.aliases.lookup name with
    | some value =>
      tell ("alias ".toList ++ aliasText name value) (" is an alias for " ++ String.ofList value)
    | none =>
      if s.functions.any (·.1 = name) then tell name " is a shell function"
      else if builtinNames.contains known then
        tell name (if specialNames.contains known then " is a special shell builtin"
          else " is a shell builtin")
      else
        let found := match s.startable? s.searchPath name with
          | .ok (written, _) => some written
          | .error _ => if name.contains '/' ∧ (s.node? name).isSome then some name else none
        match found with
        | some written => tell written (" is " ++ String.ofList written)
        | none =>
          if inWords then say (name ++ ": not found\n".toList)
          return 127

/-- Tells what names stand for. -/
def tellKinds (arguments : List Octets) : Act Nat :=
  arguments.foldlM (fun status name => return max status (← describe true name)) 0

/-- Tells what a name stands for, if that is asked of `command`. -/
def tellCommand (arguments : List Octets) : Act Nat := do
  let (o, operands) ← commandOptions "pvV" arguments
  match operands with
  | name :: _ => if o.hasAny "vV" then describe (o.has 'V') name else return 0
  | [] => return 0

/-- Complains of names that stand for nothing. -/
def hashNames (arguments : List Octets) : Act Nat := do
  let (_, names) ← commandOptions "rv" arguments
  names.foldlM (fun status name => do
    let s ← get
    match s.startable? s.searchPath name with
    | .ok _ => return status
    | .error _ =>
      if builtinNames.contains (String.ofList name) ∨ s.functions.any (·.1 = name) then
        return status
      else
        complain (name ++ ": not found".toList)
        return 1) 0

/-! ### Scripts -/

/-- The file that a script is read from: as it is named, or in a directory of the search path. -/
def scriptFile? (s : State) (name : Octets) : Option (Octets × Octets) :=
  (candidates s.searchPath name).findSome? fun written =>
    match s.node? written with
    | some (.file content) => some (written, .ofBytes content)
    | some .null => if name.contains '/' then some (written, []) else none
    | _ => none

/-- Runs the script in a file. -/
def runFile (inner : Interpreter) (arguments : List Octets) : Act Nat := do
  let (_, operands) ← commandOptions "" arguments
  match operands with
  | [] => return 0
  | name :: _ =>
    let s ← get
    match scriptFile? s name with
    | none =>
      if name.contains '/' then abort ("cannot open ".toList ++ name ++ ": No such file".toList)
      else abort (name ++ ": not found".toList)
    | some (written, script) =>
      set { s with command := some written }
      inner.text false script
      modify fun t =>
        { t with
          skip := if t.skip = .returning ∨ t.skip = .leaving then .nothing else t.skip }
      lastStatus

/-- Runs its arguments as a script. -/
def evaluateWords (inner : Interpreter) (tested : Bool) (arguments : List Octets) : Act Nat := do
  if arguments.isEmpty then return 0
  else
    inner.text tested (Octets.join [' '] arguments)
    lastStatus

/-- Lets a program take the place of the shell. -/
def replace (inner : Interpreter) (arguments : List Octets) : Act Nat := do
  let (_, operands) ← commandOptions "" arguments
  match operands with
  | [] => return 0
  | name :: _ =>
    match (← get).launch? operands with
    | .error e =>
      complain (name ++ (match e with
        | .missing => ": not found".toList
        | .denied => ": Permission denied".toList))
      setStatus e.status
      throw .exit
    | .ok _ => throw (.ended (← inner.program operands))

/-- The command of the shell of a name. -/
def builtin? (name : Octets) : Option Builtin :=
  let plain : (List Octets → Act Nat) → Option Builtin := fun f =>
    some { run := fun _ _ as => f as }
  let special : (List Octets → Act Nat) → Option Builtin := fun f =>
    some { special := true, run := fun _ _ as => f as }
  let declares : (List Octets → Act Nat) → Option Builtin := fun f =>
    some { special := true, assigns := true, run := fun _ _ as => f as }
  match String.ofList name with
  | ":" => special fun _ => return 0
  | "true" => plain fun _ => return 0
  | "false" => plain fun _ => return 1
  | "exit" => special exitShell
  | "return" => special returnFrom
  | "break" => special (leaveLoops .breaking)
  | "continue" => special (leaveLoops .continuing)
  | "export" =>
    declares (declareAll "export" Variable.exported fun v => { v with exported := true })
  | "readonly" =>
    declares (declareAll "readonly" Variable.constant fun v => { v with constant := true })
  | "local" => declares makeLocals
  | "unset" => special unset
  | "set" => special setAll
  | "shift" => special shiftOperands
  | "trap" => special setTraps
  | "times" => special fun _ => do
    say "0m0.000000s 0m0.000000s\n0m0.000000s 0m0.000000s\n".toList
    return 0
  | "eval" => some { special := true, run := evaluateWords }
  | "." => some { special := true, run := fun inner _ as => runFile inner as }
  | "exec" => some { special := true, run := fun inner _ as => replace inner as }
  | "cd" => plain changeDirectory
  | "chdir" => plain changeDirectory
  | "pwd" => plain fun _ => do
    say (nameText (Path.text (← get).directory) ++ ['\n'])
    return 0
  | "echo" => plain echoWords
  | "printf" => plain printWords
  | "test" => plain (testWords false)
  | "[" => plain (testWords true)
  | "read" => plain readVariables
  | "getopts" => plain getOptions
  | "alias" => plain setAliases
  | "unalias" => plain forgetAliases
  | "kill" => plain kill
  | "wait" => plain wait
  | "jobs" => plain fun _ => return 0
  | "type" => plain tellKinds
  | "command" => plain tellCommand
  | "hash" => plain hashNames
  | "umask" => plain fun as => do
    if as.isEmpty then say "0022\n".toList
    return 0
  | "ulimit" => plain fun as => do
    if as.length ≤ 1 then say "unlimited\n".toList
    return 0
  | "fg" => plain fun _ => abort "No current job".toList
  | "bg" => plain fun _ => abort "No current job".toList
  | _ => none

end Shell
end ImagePolicy
