/-
# The state of a shell

What a shell at work knows: its operands and variables, functions and traps, the options that are
set, the line it is at, the streams behind its descriptors, and the status of its last command. An
act changes this state, comes to a value, and may be cut short: the shell ends, it ends because of
an error, its process is over, or it would go on forever.

Complaints name the shell, the line and, inside a command of the shell, that command.

Key definitions: `Shell.State`, `Shell.Act`, `Shell.Halt`, `Shell.complain`, `Shell.abort`,
`Shell.write`, `Shell.inProcess`.
-/
import ImagePolicy.Shell.Machine
import ImagePolicy.Shell.Grammar
import ImagePolicy.Shell.Format

namespace ImagePolicy
namespace Shell

/-- A variable: its value, if it is set, whether programs get it, and whether it stays as it is. -/
structure Variable where
  value : Option Octets := none
  exported : Bool := false
  constant : Bool := false

/-- What is passed over on the way out of a loop, a function or a script. -/
inductive Skip where
  | nothing
  | breaking (loops : Nat)
  | continuing (loops : Nat)
  | returning
  | leaving
  deriving DecidableEq, Repr

/-- The state of a shell. -/
structure State where
  machine : Machine
  process : Nat
  main : Nat
  ancestors : List Nat
  name : Octets
  operands : List Octets
  bindings : List (Octets × Variable)
  functions : List (Octets × Command) := []
  documents : List (Nat × Word) := []
  nextDocument : Nat := 0
  aliases : List (Octets × Octets) := []
  options : List Char := []
  traps : List (Nat × Octets) := []
  inherited : List Nat := []
  caught : List Nat := []
  descriptors : List (Nat × Nat)
  directory : Path
  status : Nat := 0
  substituted : Nat := 0
  saved : Option Nat := none
  line : Nat := 1
  command : Option Octets := none
  skip : Skip := .nothing
  loops : Nat := 0
  locals : Option (List (Octets × Option Variable)) := none
  calls : Nat := 0
  lastJob : Option Nat := none
  optionIndex : Nat := 1
  optionOffset : Nat := 0

/-- Why a shell does not go on. -/
inductive Halt where
  | exit
  | error
  | ended (status : ExitStatus)
  | endless
  deriving DecidableEq, Repr

/-- Something a shell does. -/
abbrev Act (α : Type) := ExceptT Halt (StateM State) α

/-- What the parts of the evaluation need of the whole: running a command, whose failure may be
tested or not, running a text as a script, and running a program with its arguments in the place of
the shell. -/
structure Interpreter where
  command : (tested : Bool) → Command → Act Unit
  text : (tested : Bool) → Octets → Act Unit
  program : List Octets → Act ExitStatus

/-! ### Status -/

/-- Sets the status of the last command. -/
def setStatus (n : Nat) : Act Unit :=
  modify fun s => { s with status := n }

/-- The status of the last command. -/
def lastStatus : Act Nat := return (← get).status

/-- Whether something is being passed over. -/
def skips : Act Bool := return (← get).skip ≠ .nothing

/-- The letters of the options, in the order in which a script is told which are set. -/
def optionLetters : List Char := "ubaCEVvxsnmiIfe".toList

/-- Whether an option is set. -/
def hasOption (letter : Char) : Act Bool := return (← get).options.contains letter

/-- The number that the end of a process gives as a status. -/
def statusOf : ExitStatus → Nat
  | .code n => n
  | .signal n => 128 + n

/-! ### Streams -/

/-- The number of the stream behind a descriptor. -/
def stream? (descriptor : Nat) : Act (Option Nat) :=
  return (← get).descriptors.lookup descriptor

/-- Changes what processes share. -/
def onMachine (f : Machine → Machine) : Act Unit :=
  modify fun s => { s with machine := f s.machine }

/-- Writes to the stream behind a descriptor; tells whether there is one. -/
def write (descriptor : Nat) (text : Octets) : Act Bool := do
  match ← stream? descriptor with
  | some n =>
    let process := (← get).process
    if !text.isEmpty then onMachine fun m => m.write n process text
    return true
  | none => return text.isEmpty

/-- Opens a stream; gives its number. -/
def openStream (stream : Stream) : Act Nat :=
  modifyGet fun s =>
    let (n, machine) := s.machine.openStream stream
    (n, { s with machine })

/-- What is left to be read behind a descriptor. -/
def unread (descriptor : Nat) : Act Octets := do
  match ← stream? descriptor with
  | some n => return (← get).machine.unread n
  | none => return []

/-- Passes so many bytes behind a descriptor. -/
def passInput (descriptor count : Nat) : Act Unit := do
  match ← stream? descriptor with
  | some n => onMachine fun m => m.pass n count
  | none => return ()

/-- Puts a stream behind a descriptor. -/
def setDescriptor (descriptor stream : Nat) : Act Unit :=
  modify fun s =>
    { s with
      descriptors := (descriptor, stream) :: s.descriptors.filter fun d => d.1 ≠ descriptor }

/-- Closes a descriptor. -/
def closeDescriptor (descriptor : Nat) : Act Unit :=
  modify fun s => { s with descriptors := s.descriptors.filter fun d => d.1 ≠ descriptor }

/-! ### Complaints -/

/-- Complains. -/
def complain (message : Octets) : Act Unit := do
  let s ← get
  let command := match s.command with
    | some c => c ++ ": ".toList
    | none => []
  let _ ← write 2 (s.name ++ ": ".toList ++ Octets.ofNat s.line ++ ": ".toList ++ command ++
    message ++ ['\n'])

/-- Complains and gives up. -/
def abort {α : Type} (message : Octets) (status : Nat := 2) : Act α := do
  complain message
  setStatus status
  throw .error

/-- Complains of a text that is no number, and gives up. -/
def notNumber {α : Type} (text : Octets) : Act α :=
  abort ("Illegal number: ".toList ++ text)

/-- The greatest number that an argument may be. -/
def greatestNumber : Int := 2147483647

/-- The number that an argument spells. -/
def numberOf (text : Octets) : Act Nat :=
  match decimalInteger? text with
  | some n => if 0 ≤ n ∧ n ≤ greatestNumber then return n.toNat else notNumber text
  | none => notNumber text

/-! ### Variables -/

/-- The variable of a name. -/
def State.binding (s : State) (name : Octets) : Variable :=
  (s.bindings.lookup name).getD {}

/-- The value of a variable. -/
def State.value? (s : State) (name : Octets) : Option Octets :=
  (s.binding name).value

/-- The state with a variable changed. A new one comes after the others. -/
def State.bind (s : State) (name : Octets) (v : Variable) : State :=
  let known := s.bindings.any fun b => b.1 = name
  let bindings :=
    if known then s.bindings.map fun b => if b.1 = name then (name, v) else b
    else s.bindings ++ [(name, v)]
  { s with bindings }

/-- The value of a variable. -/
def value? (name : String) : Act (Option Octets) :=
  return (← get).value? name.toList

/-- Sets a variable, which stays exported if it was. -/
def setVariable (name value : Octets) (exported : Bool := false) : Act Unit := do
  let s ← get
  let v := s.binding name
  if v.constant then abort (name ++ ": is read only".toList)
  else
    let exported := v.exported || exported || s.options.contains 'a'
    set (s.bind name { v with value := some value, exported })
    if name = "OPTIND".toList then
      modify fun s =>
        { s with optionIndex := max 1 ((Octets.toNat? value).getD 1), optionOffset := 0 }

/-- The variables that programs are started with. -/
def State.environment (s : State) : List (Octets × Octets) :=
  s.bindings.filterMap fun (name, v) =>
    match v.exported, v.value with
    | true, some value => some (name, value)
    | _, _ => none

/-! ### Processes -/

/-- Lets time pass. -/
def elapse (milliseconds : Nat) : Act Unit :=
  onMachine fun m => { m with now := m.now + milliseconds }

/-- The state that a new process of the same shell starts in. Only the signals that are ignored stay
trapped. -/
def State.forked (s : State) : State :=
  let (process, machine) := s.machine.newProcess
  { s with
    machine, process, ancestors := s.process :: s.ancestors
    traps := s.traps.filter fun t => t.2.isEmpty
    caught := [], saved := none }

/-- Runs something in a process of its own. Only what processes share is changed by it. -/
def inProcess (start : State → State) (body : Act ExitStatus) : Act ExitStatus := do
  let s ← get
  let (result, t) := body (start s.forked)
  set { s with machine := t.machine }
  match result with
  | .ok status => return status
  | .error (.ended status) => return status
  | .error .endless => throw .endless
  | .error _ => return .code t.status

end Shell
end ImagePolicy
