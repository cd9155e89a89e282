/-
# Running scripts

The meaning of commands. A command is run with the evaluation one level down for what it is made of;
the levels are tied together in the end, and a script that goes deeper is ended by a signal. Loops
make only so many rounds before they count as endless.

Where the failure of a command is not tested, it ends a script that asked for that. A group in
parentheses, each command of a pipeline and a command substitution run in a process of their own,
and so do programs. The commands of a pipeline run one after the other, each from the time at which
the first began.

Key definitions: `Shell.runSimple`, `Shell.runPipeline`, `Shell.evaluate`, `Shell.runText`,
`Shell.startShell`, `Shell.startAt`.
-/
import ImagePolicy.Shell.Launcher

namespace ImagePolicy
namespace Shell

/-- Takes steps until one comes to an end, so many at most. -/
def rounds {α : Type} (step : α → Act (Option α)) : Nat → α → Act Unit
  | 0, _ => fun s => (.error .endless, s)
  | n + 1, a => fun s =>
    match step a s with
    | (.error h, s) => (.error h, s)
    | (.ok none, s) => (.ok (), s)
    | (.ok (some a), s) => rounds step n a s

/-- How many rounds a loop makes at most. -/
def roundLimit : Nat := 100000

/-- Puts the shell at a line. -/
def atLine (line : Nat) : Act Unit :=
  modify fun s => { s with line }

/-- Waits for a process that has come to its end, and takes its status. -/
def takeEnd (status : ExitStatus) : Act Unit := do
  setStatus (← tellEnd status)

/-- Ends a script that asks for that if a command has failed whose failure is not tested. -/
def leaveOnFailure (tested : Bool) : Act Unit := do
  let s ← get
  if !tested && s.options.contains 'e' && s.status ≠ 0 then throw .exit

/-! ### Words of a command -/

/-- The words behind `command` and its options; none if it has to tell something itself. -/
def behindCommand : List Octets → Option (List Octets)
  | [] => none
  | a :: as =>
    match a with
    | ['-', '-'] => if as.isEmpty then none else some as
    | '-' :: c :: cs => if (c :: cs).all (· = 'p') then behindCommand as else none
    | _ => some (a :: as)

/-- The words that are carried out, and whether `command` stood before them. -/
def peeled : Nat → Bool → List Octets → List Octets × Bool
  | fuel + 1, behind, name :: as =>
    if name = "command".toList then
      match behindCommand as with
      | some words => peeled fuel true words
      | none => (name :: as, behind)
    else (name :: as, behind)
  | _, behind, words => (words, behind)

/-- Whether the arguments after such words may assign to variables. -/
def assignsAfter (functions : List (Octets × Command)) (words : List Octets) : Bool :=
  match peeled words.length false words with
  | (name :: _, behind) =>
    (behind || !functions.any (·.1 = name)) && (builtin? name).any Builtin.assigns
  | _ => false

/-- The fields of the words of a command. An argument that assigns to a variable is no more split
than an assignment is. -/
def commandFields (inner : Interpreter) (words : List Word) : Act (List Octets) :=
  words.foldlM (fun fields w => do
    match assignsAfter (← get).functions fields, assignment? w with
    | true, some (name, value) =>
      return fields ++ [name ++ '=' :: (← expandValue inner value)]
    | _, _ => return fields ++ (← expandFields inner w)) []

/-! ### Simple commands -/

/-- The state with variables as they were. -/
def State.restore (kept : List (Octets × Option Variable)) (s : State) : State :=
  kept.foldl (fun s (name, v) =>
    match v with
    | some v => s.bind name v
    | none => { s with bindings := s.bindings.filter fun b => b.1 ≠ name }) s

/-- How many calls of functions may be under way in a process. -/
def callLimit : Nat := 1000

/-- Calls a function. Its operands and its local variables are its own. A call too many is counted
although it is not made. -/
def callFunction (inner : Interpreter) (tested : Bool) (body : Command) (arguments : List Octets) :
    Act Unit := do
  let s ← get
  set { s with calls := s.calls + 1 }
  if s.calls ≥ callLimit then
    abort ("Maximum function recursion depth (".toList ++ Octets.ofNat callLimit ++
      ") reached".toList)
  set { s with
    operands := arguments, optionIndex := 1, optionOffset := 0
    loops := 0, locals := some [], calls := s.calls + 1 }
  let afterwards : State → State := fun t =>
    let t := t.restore (t.locals.getD [])
    { t with
      operands := s.operands, optionIndex := s.optionIndex, optionOffset := s.optionOffset
      loops := s.loops, locals := s.locals, calls := t.calls - 1
      skip := if t.skip = .returning ∨ t.skip = .leaving then .nothing else t.skip }
  always afterwards (inner.command tested body)

/-- Runs a command of the shell. An error in one that is not special only ends that command. -/
def runBuiltin (inner : Interpreter) (tested isSpecial : Bool) (b : Builtin) (name : Octets)
    (arguments : List Octets) : Act Unit := do
  let before := (← get).command
  let body : Act Unit := always (fun t => { t with command := before }) do
    modify fun t => { t with command := some name }
    setStatus (← b.run inner tested arguments)
  if isSpecial then body
  else
    try body
    catch
      | .error => return ()
      | h => throw h

/-- Runs a program and waits for it. -/
def runProgram (inner : Interpreter) (fields : List Octets) : Act Unit := do
  let name := fields.headD []
  match (← get).launch? fields with
  | .ok _ =>
    let status ← inProcess id (inner.program fields)
    takeSignals
    takeEnd status
  | .error .missing =>
    complain (name ++ ": not found".toList)
    setStatus 127
  | .error .denied =>
    complain (name ++ ": Permission denied".toList)
    setStatus (if name.contains '/' then 126 else 127)

/-- Runs what a name stands for: a function, a command of the shell, or a program. -/
def runNamed (inner : Interpreter) (tested : Bool) (fields : List Octets) : Act Unit := do
  let (words, behind) := peeled fields.length false fields
  match words with
  | [] => setStatus (← get).substituted
  | name :: arguments =>
    let known := (← get).functions.lookup name
    let function := if behind then none else known
    match function, builtin? name with
    | some d, _ => callFunction inner tested d arguments
    | none, some b => runBuiltin inner tested (b.special && !behind) b name arguments
    | none, none => runProgram inner words

/-- Tells a command before it is run. -/
def traceCommand (inner : Interpreter) (stream : Option Nat) (assigned : List Octets)
    (fields : List Octets) : Act Unit := do
  let s ← get
  if s.options.contains 'x' then
    let sign := (s.value? "PS4".toList).getD "+ ".toList
    let sign ← match readPlain sign with
      | some w => expandText inner w
      | none => pure sign
    match stream with
    | some n =>
      onMachine fun m =>
        m.write n s.process (sign ++ Octets.join [' '] (assigned ++ fields) ++ ['\n'])
    | none => return ()
where
  /-- The pieces of a text as they are in double quotes. -/
  readPlain (text : Octets) : Option Word :=
    match piecesAt (2 * text.length + 4) .document { rest := text, line := 1 } with
    | .ok (w, _) => some w
    | .error _ => none

/-- Assigns to variables in order; comes to the assignments as they are told. -/
def assignAll (inner : Interpreter) (exported : Bool) (assignments : List (Octets × Word)) :
    Act (List Octets) :=
  assignments.mapM fun (name, w) => do
    let value ← expandValue inner w
    setVariable name value exported
    return name ++ '=' :: value

/-- Runs a simple command. Its words are expanded first, then its redirections are carried out, then
its assignments, which last only as long as the command unless it is special or has no words. -/
def runSimple (inner : Interpreter) (tested : Bool) (line : Nat)
    (assignments : List (Octets × Word)) (words : List Word) (rs : List Redirect) : Act Unit := do
  modify fun s => { s with line, substituted := 0 }
  let fields ← commandFields inner words
  let first := fields.headD []
  let s ← get
  let isFunction := s.functions.any (·.1 = first)
  let isSpecial : Bool := !isFunction && (builtin? first).any Builtin.special
  let isExec : Bool := !isFunction &&
    (peeled fields.length false fields).1.head? = some "exec".toList
  let openings ← rs.mapM (opening inner)
  let trace ← stream? 2
  let body : Act Unit := do
    if ← redirects inner openings then
      let lasting := fields.isEmpty || isSpecial
      let kept := if lasting then [] else
        assignments.map fun (name, _) => (name, s.bindings.lookup name)
      always (State.restore kept) do
        let assigned ← assignAll inner (!lasting || (isExec && 1 < fields.length)) assignments
        traceCommand inner trace assigned fields
        runNamed inner tested fields
    else
      setStatus 2
      if isSpecial then throw .error
  if isExec then body else keepingDescriptors body

/-! ### Processes -/

/-- Runs a command in a process of its own, with its redirections. -/
def runApart (inner : Interpreter) (tested : Bool) (body : Command) (openings : List Opening) :
    Act Unit := do
  if ← redirects inner openings then inner.command tested body
  else
    setStatus 2
    throw .error

/-- Lets time go back to when a process was started, and keeps the process as one in the background.
-/
def keepJob (start process : Nat) (status : ExitStatus) (isEndless : Bool) : Act Unit := do
  let s ← get
  let m := s.machine
  let ends := if isEndless then m.now + forever else m.now
  set { s with
    machine := { m with now := start, jobs := m.jobs ++ [Job.mk process s.process ends status] }
    lastJob := some process }
  setStatus 0

/-- Runs something that may go on forever; comes to whether it does. -/
def orEndless (body : Act ExitStatus) : Act (ExitStatus × Bool) := do
  try return (← body, false)
  catch
    | .endless => return (.code 0, true)
    | h => throw h

/-- Runs a command in the background. It reads nothing unless it is told to. -/
def runInBackground (inner : Interpreter) (body : Command) (rs : List Redirect) : Act Unit := do
  let openings ← rs.mapM (opening inner)
  let null ← openStream .null
  let s ← get
  let process := s.machine.lastProcess + 1
  let start : State → State := fun t =>
    { t with descriptors := (0, null) :: t.descriptors.filter fun d => d.1 ≠ 0 }
  let (status, isEndless) ←
    orEndless (inProcess start (ending inner (runApart inner false body openings)))
  keepJob s.machine.now process status isEndless

/-- A pipeline under way: the stream that the next command reads, when the last one ended, the ends
of the commands, and whether the last one goes on forever. -/
structure PipelineProgress where
  input : Option Nat
  ends : Nat
  statuses : List ExitStatus := []
  isEndless : Bool := false

/-- Runs a command of a pipeline. One that goes on forever ends when nobody reads any more what it
writes. -/
def runStage (inner : Interpreter) (tested : Bool) (start : Nat) (p : PipelineProgress)
    (c : Command) (isLast : Bool) : Act PipelineProgress := do
  onMachine fun m => { m with now := start }
  let output ← if isLast then pure none else some <$> openStream (.sink [])
  let wire : State → State := fun t =>
    let ends := (match p.input with | some n => [(0, n)] | none => []) ++
      match output with | some n => [(1, n)] | none => []
    { t with
      descriptors := ends ++ t.descriptors.filter fun d => !ends.any fun e => e.1 = d.1 }
  let (status, isEndless) ← orEndless (inProcess wire (ending inner (inner.command tested c)))
  let m := (← get).machine
  match output with
  | some n =>
    let text := m.collect n
    onMachine fun m => m.setStream n .null
    let input ← openStream (.source text)
    let ends := if isEndless then p.ends else max p.ends m.now
    return { p with input := some input, ends, statuses := p.statuses ++ [status] }
  | none =>
    return { p with ends := max p.ends m.now, statuses := p.statuses ++ [status], isEndless }

/-- Runs the commands of a pipeline. -/
def runStages (inner : Interpreter) (tested : Bool) (start : Nat) :
    PipelineProgress → List Command → Act PipelineProgress
  | p, [] => return p
  | p, c :: cs => do
    let p ← runStage inner tested start p c cs.isEmpty
    runStages inner tested start p cs

/-- Runs a pipeline, whose status is that of its last command. -/
def runPipeline (inner : Interpreter) (tested : Bool) (cs : List Command) (waits : Bool) :
    Act Unit := do
  let start := (← get).machine.now
  let input ← if waits then pure none else some <$> openStream .null
  let p ← runStages inner tested start ⟨input, start, [], false⟩ cs
  onMachine fun m => { m with now := p.ends }
  let last := p.statuses.getLastD (.code 0)
  if waits then
    if p.isEndless then throw .endless
    takeSignals
    p.statuses.forM fun status => do
      let _ ← tellEnd status
    setStatus (statusOf last)
  else keepJob start (← get).machine.lastProcess last p.isEndless

/-! ### Loops and choices -/

/-- What is passed over after a round of a loop: everything, the rest of the loop, or only the rest
of the round; and the state after that. -/
def takeSkip : Act Skip := do
  let s ← get
  let count : Nat → (Nat → Skip) → Act Skip := fun n make => do
    if n ≤ 1 then
      set { s with skip := .nothing }
      return make n
    else
      set { s with skip := make (n - 1) }
      return .breaking n
  match s.skip with
  | .breaking n => count n .breaking
  | .continuing n => count n .continuing
  | skip => return skip

/-- Whether a loop goes on after what is passed over. -/
def Skip.goesOn : Skip → Bool
  | .nothing => true
  | .continuing _ => true
  | _ => false

/-- Runs something as the body of a loop. -/
def asLoop (body : Act Unit) : Act Unit := do
  modify fun s => { s with loops := s.loops + 1 }
  always (fun s => { s with loops := s.loops - 1 }) body

/-- Runs a loop as long as its condition holds, or until it does. The status is that of the last
round. -/
def runLoop (inner : Interpreter) (tested untilDone : Bool) (condition body : Command) :
    Act Unit := do
  let step : Nat → Act (Option Nat) := fun status => do
    inner.command true condition
    let held ← lastStatus
    match ← takeSkip with
    | .nothing =>
      if (held = 0) = untilDone then
        setStatus status
        return none
      else
        inner.command tested body
        let status ← lastStatus
        if (← takeSkip).goesOn then return some status else return none
    | .continuing _ => return some status
    | .returning =>
      setStatus held
      return none
    | .leaving => return none
    | .breaking _ =>
      setStatus status
      return none
  asLoop (rounds step roundLimit 0)

/-- Runs a loop over values. -/
def runEach (inner : Interpreter) (tested : Bool) (name : Octets) (values : List Octets)
    (body : Command) : Act Unit := do
  let step : List Octets → Act (Option (List Octets)) := fun values => do
    match values with
    | [] => return none
    | v :: vs =>
      setVariable name v
      inner.command tested body
      if (← takeSkip).goesOn then return some vs else return none
  if values.isEmpty then setStatus 0
  else asLoop (rounds step (values.length + 1) values)

/-- The first case that has a pattern for a text. -/
def chosenCase (inner : Interpreter) (text : Octets) :
    List (List Word × Option Command) → Act (Option (Option Command))
  | [] => return none
  | (patterns, body) :: cases => do
    let found ← patterns.foldlM (fun found w => do
      if found then return true
      else return globMatches (← expandPattern inner w) text) false
    if found then return some body else chosenCase inner text cases

/-! ### Commands -/

/-- The commands that are run one after the other. -/
def inSequence : Command → List Command
  | .sequence first second => inSequence first ++ [second]
  | c => [c]

/-- Runs commands one after the other, unless they are passed over. -/
def runSequence (inner : Interpreter) (tested : Bool) : List Command → Act Unit
  | [] => return ()
  | c :: cs => do
    inner.command tested c
    if !(← skips) then runSequence inner tested cs

/-- Does what a command means. -/
def perform (inner : Interpreter) (tested : Bool) : Command → Act Unit
  | .simple line assignments words rs => do
    runSimple inner tested line assignments words rs
    leaveOnFailure tested
  | .pipeline cs waits => do
    runPipeline inner tested cs waits
    leaveOnFailure tested
  | .negated body => do
    inner.command true body
    setStatus (if (← lastStatus) = 0 then 1 else 0)
  | .both first second => do
    inner.command true first
    if (← lastStatus) = 0 ∧ !(← skips) then inner.command tested second
  | .either first second => do
    inner.command true first
    if (← lastStatus) ≠ 0 ∧ !(← skips) then inner.command tested second
  | .sequence first second =>
    runSequence inner tested (inSequence (.sequence first second))
  | .background line body rs => do
    atLine line
    runInBackground inner body rs
  | .subshell line body rs => do
    atLine line
    let openings ← rs.mapM (opening inner)
    takeEnd (← runChild inner id (runApart inner tested body openings))
    leaveOnFailure tested
  | .redirected line body rs => do
    atLine line
    let openings ← rs.mapM (opening inner)
    keepingDescriptors do
      if ← redirects inner openings then inner.command tested body else setStatus 2
  | .branch condition body otherwise => do
    inner.command true condition
    if !(← skips) then
      if (← lastStatus) = 0 then inner.command tested body
      else match otherwise with
        | some c => inner.command tested c
        | none => setStatus 0
  | .loop untilDone condition body => runLoop inner tested untilDone condition body
  | .each line name values body => do
    atLine line
    runEach inner tested name (← expandAll inner values) body
  | .choice line subject cases => do
    atLine line
    let text ← expandText inner subject
    match ← chosenCase inner text cases with
    | some (some c) => inner.command tested c
    | _ => setStatus 0
  | .define name body => do
    modify fun s =>
      { s with functions := (name, body) :: s.functions.filter fun f => f.1 ≠ name }
    setStatus 0

/-- Runs a command. Signals are acted on before and after it. -/
def evaluate (inner : Interpreter) (tested : Bool) (c : Command) : Act Unit := do
  if !(← hasOption 'n') then
    takeSignals
    runTraps inner
    perform inner tested c
    takeSignals
    runTraps inner

/-! ### Scripts -/

/-- Reads a script and runs it, line by line. The status of a script without commands is zero. -/
def runText (inner : Interpreter) (tested : Bool) (script : Octets) : Act Unit := do
  let step : Source × Bool → Act (Option (Source × Bool)) := fun (source, ran) => do
    let s ← get
    let source := { source with
      aliases := s.aliases, nextDocument := s.nextDocument }
    match readLine source with
    | .error fault =>
      atLine fault.line
      abort fault.message
    | .ok .ending =>
      if !ran then setStatus 0
      return none
    | .ok (.commands c next) =>
      set { s with
        documents := s.documents ++ next.documents, nextDocument := next.nextDocument }
      match c with
      | some c => inner.command tested c
      | none => pure ()
      return if ← skips then none else some (next, ran || c.isSome)
  rounds step (2 * script.length + 2) ({ rest := script, line := 1 }, false)

/-- The variables that a shell starts with: those it is given, and those it sets itself. -/
def startBindings (s : State) : List (Octets × Variable) :=
  let given := s.environment.filterMap fun (name, value) =>
    if isName name ∧ name ≠ "IFS".toList then
      some (name, { value := some value, exported := true : Variable })
    else none
  let own : List (String × Octets) :=
    [("IFS", " \t\n".toList), ("OPTIND", ['1']), ("PATH", usualSearchPath),
      ("PPID", Octets.ofNat (s.ancestors.headD 1)), ("PS1", "# ".toList), ("PS2", "> ".toList),
      ("PS4", "+ ".toList), ("PWD", nameText (Path.text s.directory))]
  given ++ own.filterMap fun (name, value) =>
    if given.any (·.1 = name.toList) then none
    else some (name.toList, { value := some value, exported := name = "PWD" : Variable })

/-- The state that a shell starts in, in the place of the program that it is started as. -/
def State.fresh (s : State) (name : Octets) : State where
  machine := s.machine
  process := s.process
  main := s.process
  ancestors := s.ancestors
  name := name
  operands := []
  bindings := startBindings s
  inherited := s.inherited ++ (s.traps.filter fun t => t.2.isEmpty).map Prod.fst
  descriptors := s.descriptors
  directory := s.directory
  line := 0

/-- Runs the script that a shell is started with: an argument, a file, or what it reads. -/
def runStart (inner : Interpreter) (arguments : List Octets) : Act Unit := do
  let f ← takeFlags true arguments
  let start : Octets → List Octets → Octets → Act Unit := fun name operands script => do
    modify fun s => { s with name, operands, line := 1 }
    inner.text false script
  let s ← get
  match f.hasScript, f.rest with
  | true, [] => abort "-c requires an argument".toList
  | true, [script] => start s.name [] script
  | true, script :: name :: operands => start name operands script
  | false, name :: operands =>
    if s.options.contains 's' then
      let script ← unread 0
      passInput 0 script.length
      start s.name f.rest script
    else match s.node? name with
      | some (.file content) => start name operands (.ofBytes content)
      | some _ => start name operands []
      | none => abort ("cannot open ".toList ++ name ++ ": No such file".toList)
  | false, [] =>
    setOption 's' true
    let script ← unread 0
    passInput 0 script.length
    start s.name [] script

/-- Starts a shell. -/
def startShell : Launcher := fun inner name arguments => do
  modify fun s => s.fresh name
  ending inner (runStart inner arguments)

/-- Lets a program take the place of a process. -/
def runLaunch (inner : Interpreter) (arguments : List Octets) : Act ExitStatus := do
  match (← get).launch? arguments with
  | .error e => return .code e.status
  | .ok ⟨program, arguments⟩ =>
    let name := arguments.headD []
    let rest := arguments.drop 1
    if program = "sh" ∨ program = "dash" then startShell inner name rest
    else match launchers.lookup program, tools.lookup program with
      | some l, _ => l inner name rest
      | none, some tool => runTool program name tool rest
      | none, none => return .code 127

/-! ### Levels -/

mutual

/-- Runs a command, at a level. What goes too deep ends by a signal. -/
def evaluateAt : Nat → Bool → Command → Act Unit
  | 0, _, _ => throw (.ended (.signal 11))
  | n + 1, tested, c => evaluate ⟨evaluateAt n, textAt n, startAt n⟩ tested c

/-- Runs a script, at a level. -/
def textAt : Nat → Bool → Octets → Act Unit
  | 0, _, _ => throw (.ended (.signal 11))
  | n + 1, tested, script => runText ⟨evaluateAt n, textAt n, startAt n⟩ tested script

/-- Lets a program take the place of a process, at a level. -/
def startAt : Nat → List Octets → Act ExitStatus
  | 0, _ => throw (.ended (.signal 11))
  | n + 1, arguments => runLaunch ⟨evaluateAt n, textAt n, startAt n⟩ arguments

end

end Shell
end ImagePolicy
