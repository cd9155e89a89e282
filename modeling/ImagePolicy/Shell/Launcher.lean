/-
# Launchers

Programs that start others: `env` with another environment, `xargs` for the words that it reads,
`find` for the files that it finds, `timeout` for so long at most, and others that change nothing a
script can tell. Those that look at processes or at paths as a shell does are here as well.

Key definitions: `Shell.Launcher`, `Shell.startChild`, `Shell.envLauncher`, `Shell.wordsLauncher`,
`Shell.findLauncher`, `Shell.timeLauncher`.
-/
import ImagePolicy.Shell.Builtin

namespace ImagePolicy
namespace Shell

/-- A program that may start others: what it does under a name with its arguments. -/
abbrev Launcher := Interpreter → (name : Octets) → List Octets → Act ExitStatus

/-- Writes a message and comes to a status. -/
def failing (status : Nat) (message : Octets) : Act ExitStatus := do
  let _ ← write 2 (message ++ ['\n'])
  return .code status

/-- Goes on with the options and operands of a launcher, of which the first operand ends the
options; or ends with a status at an argument that is wrong. -/
def withLauncherOptions (tool : String) (failure : Nat) (names : OptionNames)
    (arguments : List Octets) (body : Options → List Octets → Act ExitStatus) : Act ExitStatus :=
  let rec take : Nat → List Octets → Except Octets (Options × List Octets)
    | 0, as => .ok ([], as)
    | _, [] => .ok ([], [])
    | fuel + 1, a :: as =>
      let go : Except Octets (Options × Bool) → Except Octets (Options × List Octets) :=
        fun read => do
          let (o, taken) ← read
          let (more, operands) ← take fuel (if taken then as.tail else as)
          .ok (o ++ more, operands)
      match a with
      | ['-', '-'] => .ok ([], as)
      | '-' :: '-' :: word => go (readWordOption names as.head? word)
      | '-' :: c :: cs => go (readLetters names as.head? (c :: cs))
      | a => .ok ([], a :: as)
  match take arguments.length arguments with
  | .ok (o, operands) => body o operands
  | .error e => failing failure (withHint tool e)

/-- Lets another program take the place of a launcher, which complains if it cannot. -/
def launch (inner : Interpreter) (tool : String) (act : String) (arguments : List Octets) :
    Act ExitStatus := do
  match (← get).launch? arguments with
  | .ok _ => inner.program arguments
  | .error e =>
    failing e.status (tool.toList ++ ": ".toList ++ act.toList ++
      quotedName (arguments.headD []) ++ ": ".toList ++ e.message)

/-- Starts a program as a child and waits for it. -/
def startChild (inner : Interpreter) (arguments : List Octets) : Act ExitStatus :=
  inProcess id (inner.program arguments)

/-! ### Environments -/

/-- Exports a variable. -/
def exportValue (name value : Octets) : Act Unit :=
  modify fun s => s.bind name { value := some value, exported := true }

/-- Starts a program with another environment, or writes the environment. -/
def envLauncher : Launcher := fun inner _ arguments =>
  let arguments := arguments.map fun a => if a = ['-'] then ['-', 'i'] else a
  withLauncherOptions "env" 125
    ⟨"0iu:C:v", [("ignore-environment", 'i'), ("unset", 'u'), ("chdir", 'C'), ("null", '0')]⟩
    arguments fun o operands => do
    if o.has 'i' then modify fun s => { s with bindings := [] }
    (o.values 'u').forM fun name =>
      modify fun s => { s with bindings := s.bindings.filter fun b => b.1 ≠ name }
    let isAssignment : Octets → Bool := fun a => a.contains '=' && a.head? != some '='
    (operands.takeWhile isAssignment).forM fun a =>
      match Text.splitFirst '=' a with
      | some (name, value) => exportValue name value
      | none => return ()
    match operands.dropWhile isAssignment with
    | [] =>
      let ending : Octets := if o.has '0' then ['\x00'] else ['\n']
      let text := (← get).environment.flatMap fun (n, v) => n ++ '=' :: v ++ ending
      let _ ← write 1 text
      return .code 0
    | arguments =>
      match o.value? 'C' with
      | none => launch inner "env" "" arguments
      | some directory =>
        let s ← get
        match (s.resolve? directory).filter s.machine.disk.isDirectory with
        | some p =>
          set { s with directory := p }
          launch inner "env" "" arguments
        | none =>
          failing 125 ("env: cannot change directory to ".toList ++ quotedName directory ++
            ": ".toList ++ FileFault.missing.message)

/-! ### Limits -/

/-- Starts a program that has so much time. -/
def timeLauncher : Launcher := fun inner _ arguments =>
  withLauncherOptions "timeout" 125
    ⟨"s:k:pfv", [("signal", 's'), ("kill-after", 'k'), ("preserve-status", 'p'),
      ("foreground", 'f')]⟩ arguments fun o operands => do
    match operands with
    | limit :: program :: rest =>
      match durationOf? limit, signalNumber? ((o.value? 's').getD "TERM".toList) with
      | none, _ =>
        failing 125 (withHint "timeout" ("invalid time interval ".toList ++ quotedName limit))
      | _, none =>
        failing 125 (withHint "timeout"
          (quotedName ((o.value? 's').getD []) ++ ": invalid signal".toList))
      | some duration, some signal =>
        let s ← get
        match s.launch? (program :: rest) with
        | .error e =>
          failing e.status ("timeout: failed to run command ".toList ++ quotedName program ++
            ": ".toList ++ e.message)
        | .ok _ =>
          let stop := s.machine.now + duration
          let endless : Act (Option ExitStatus) := return none
          let status ← try
              let status ← startChild inner (program :: rest)
              pure (some status)
            catch
              | .endless => endless
              | h => throw h
          let late := status.isNone || (duration ≠ 0 && stop < (← get).machine.now)
          if late && duration = 0 then throw .endless
          else if late then
            onMachine fun m =>
              let kept : Chunk → Bool := fun c => c.process ≤ s.process || c.time ≤ stop
              let streams := m.streams.map fun
                | .sink chunks => .sink (chunks.filter kept)
                | stream => stream
              { m with streams, now := stop }
            if signal = Signal.kill then return .signal signal
            else return .code (if o.has 'p' then 128 + signal else 124)
          else return match status with
            | some (.code n) => .code n
            | some (.signal n) => .code (128 + n)
            | none => .code 124
    | _ => failing 125 "Try 'timeout --help' for more information.".toList

/-- Starts a program, after options and so many operands of its own. -/
def plainLauncher (tool letters : String) (own : Nat) : Launcher := fun inner _ arguments =>
  withLauncherOptions tool 125 ⟨letters, []⟩ arguments fun _ operands => do
    match operands.drop own with
    | [] => failing 125 (withHint tool "missing operand".toList)
    | operands => launch inner tool "failed to run command " operands

/-! ### Words -/

/-- Words that are read, as far as they are: those complete, newest first, and the one under way. -/
structure ReadingWords where
  done : List Octets := []
  current : Option Octets := none

/-- Adds a character to the word under way. -/
def ReadingWords.add (r : ReadingWords) (c : Char) : ReadingWords :=
  { r with current := some (c :: r.current.getD []) }

/-- Ends the word under way. -/
def ReadingWords.finish (r : ReadingWords) : ReadingWords :=
  match r.current with
  | some w => ⟨w.reverse :: r.done, none⟩
  | none => r

/-- The words of a text, which may have quotes and backslashes, or the quote that is not closed. -/
def wordsOf (quote : Option Char) (r : ReadingWords) : Octets → Except Char (List Octets)
  | [] =>
    match quote with
    | some q => .error q
    | none => .ok r.finish.done.reverse
  | c :: o =>
    match quote with
    | some q => if c = q then wordsOf none r o else wordsOf quote (r.add c) o
    | none =>
      if c = ' ' ∨ c = '\t' ∨ c = '\n' then wordsOf none r.finish o
      else if c = '"' ∨ c = '\'' then
        wordsOf (some c) { r with current := some (r.current.getD []) } o
      else if c = '\\' then
        match o with
        | d :: o => wordsOf none (r.add d) o
        | [] => wordsOf none r []
      else wordsOf none (r.add c) o

/-- A text with another in the place of each occurrence of a third. -/
def withReplacement (mark value : Octets) : Nat → Octets → Octets
  | 0, o => o
  | _, [] => []
  | fuel + 1, c :: o =>
    if !mark.isEmpty && mark.isPrefixOf (c :: o) then
      value ++ withReplacement mark value fuel ((c :: o).drop mark.length)
    else c :: withReplacement mark value fuel o

/-- Items in groups of so many. -/
def inGroups {α : Type} (n : Nat) : Nat → List α → List (List α)
  | 0, _ => []
  | _, [] => []
  | fuel + 1, as => as.take n :: inGroups n fuel (as.drop n)

/-- Starts a program for the words that are read. -/
def wordsLauncher : Launcher := fun inner _ arguments =>
  withLauncherOptions "xargs" 1
    ⟨"0n:I:rtd:L:P:px", [("null", '0'), ("max-args", 'n'), ("replace", 'I'),
      ("no-run-if-empty", 'r'), ("verbose", 't'), ("delimiter", 'd'), ("max-procs", 'P')]⟩
    arguments fun o operands => do
    let input ← unread 0
    passInput 0 input.length
    let program := if operands.isEmpty then ["echo".toList] else operands
    let separated : Char → List Octets := fun c =>
      let parts := Text.split c input
      if parts.getLast? = some [] then parts.dropLast else parts
    let words : Except Char (List Octets) := match o.has '0', o.value? 'd', o.has 'I' with
      | true, _, _ => .ok (separated '\x00')
      | _, some ['\\', 'n'], _ => .ok (separated '\n')
      | _, some ['\\', '0'], _ => .ok (separated '\x00')
      | _, some (c :: _), _ => .ok (separated c)
      | _, _, true =>
        .ok ((Octets.lines input).filterMap fun (l : Octets) =>
          let l := l.dropWhile fun c => c = ' ' || c = '\t'
          if l.isEmpty then none else some l)
      | _, _, false => wordsOf none {} input
    match words with
    | .error q =>
      failing 1 ("xargs: unmatched ".toList ++ (if q = '"' then "double" else "single").toList ++
        (" quote; by default quotes are special to xargs unless you use the -0 option").toList)
    | .ok words =>
      let number : Char → Option Nat := fun c => (o.value? c).bind Octets.toNat?
      let runs := match o.value? 'I', (number 'n').or (number 'L') with
        | some mark, _ =>
          words.map fun w => program.map fun (a : Octets) =>
            withReplacement mark w (a.length + 1) a
        | none, some n => (inGroups (max 1 n) (words.length + 1) words).map fun ws => program ++ ws
        | none, none => if words.isEmpty then [] else [program ++ words]
      let runs := if runs.isEmpty ∧ !o.has 'r' ∧ !o.has 'I' then [program] else runs
      let run : Nat × Bool → List Octets → Act (Nat × Bool) := fun (status, stopped) arguments => do
        if stopped then return (status, true)
        else
          if o.has 't' then
            let _ ← write 2 (Octets.join [' '] arguments ++ ['\n'])
          match (← get).launch? arguments with
          | .error e =>
            let _ ← write 2 ("xargs: ".toList ++ arguments.headD [] ++ ": ".toList ++ e.message ++
              ['\n'])
            return (e.status, true)
          | .ok _ =>
            let null ← openStream .null
            let child := inProcess (fun s =>
              { s with descriptors := (0, null) :: s.descriptors.filter fun d => d.1 ≠ 0 })
              (inner.program arguments)
            match ← child with
            | .code 0 => return (status, false)
            | .code 255 =>
              let _ ← write 2 ("xargs: ".toList ++ arguments.headD [] ++
                ": exited with status 255; aborting\n".toList)
              return (124, true)
            | .code _ => return (123, false)
            | .signal n =>
              let _ ← write 2 ("xargs: ".toList ++ arguments.headD [] ++
                ": terminated by signal ".toList ++ Octets.ofNat n ++ ['\n'])
              return (125, true)
      let (status, _) ← runs.foldlM run (0, false)
      return .code status

/-! ### Files -/

/-- What is asked of a path that is found, or done with it. -/
inductive FindTest where
  | name (pattern : List GlobPart) (whole anyCase : Bool)
  | kind (letter : Char)
  | isEmpty
  | always (holds : Bool)
  | print (ending : Char)
  | delete
  | prune
  | quit
  | execute (arguments : List Octets) (together : Bool)
  | negation (t : FindTest)
  | both (a b : FindTest)
  | either (a b : FindTest)

/-- A path that is found: as it is written, where it leads, and how deep it lies. -/
structure FoundPath where
  written : Octets
  path : Path
  depth : Nat

/-- Whether a test acts, so that nothing more is done with what passes. -/
def FindTest.acts : FindTest → Bool
  | .print _ => true
  | .delete => true
  | .quit => true
  | .execute _ _ => true
  | .negation t => t.acts
  | .both a b => a.acts || b.acts
  | .either a b => a.acts || b.acts
  | _ => false

/-- Reads tests: those joined by nothing or `-a`, and those joined by `-o`, so many levels deep at
most. -/
def readFindTests : Nat → (whole : Option FindTest) → (part : Option FindTest) → List Octets →
    Except Octets (Option FindTest × List Octets)
  | 0, whole, _, ws => .ok (whole, ws)
  | fuel + 1, whole, part, ws =>
    let joined : Option FindTest := match whole, part with
      | some a, some b => some (.either a b)
      | some a, none => some a
      | none, part => part
    let goOn : FindTest → List Octets → Except Octets (Option FindTest × List Octets) := fun t ws =>
      readFindTests fuel whole (some (match part with | some p => .both p t | none => t)) ws
    let globOfText : Octets → List GlobPart := fun o => globOf (o.map (·, false))
    match ws with
    | [] => .ok (joined, [])
    | w :: ws =>
      match String.ofList w, ws with
      | ")", ws => .ok (joined, [')'] :: ws)
      | "-o", ws => readFindTests fuel joined none ws
      | "-or", ws => readFindTests fuel joined none ws
      | "-a", ws => readFindTests fuel whole part ws
      | "-and", ws => readFindTests fuel whole part ws
      | "(", ws => do
        let (t, rest) ← readFindTests fuel none none ws
        match rest with
        | [')'] :: rest => goOn (t.getD (.always true)) rest
        | _ => .error "missing closing parenthesis".toList
      | "!", ws => negate fuel goOn ws
      | "-not", ws => negate fuel goOn ws
      | "-name", p :: ws => goOn (.name (globOfText p) false false) ws
      | "-iname", p :: ws => goOn (.name (globOfText (p.map Char.toLower)) false true) ws
      | "-path", p :: ws => goOn (.name (globOfText p) true false) ws
      | "-wholename", p :: ws => goOn (.name (globOfText p) true false) ws
      | "-type", [c] :: ws => goOn (.kind c) ws
      | "-empty", ws => goOn .isEmpty ws
      | "-true", ws => goOn (.always true) ws
      | "-false", ws => goOn (.always false) ws
      | "-print", ws => goOn (.print '\n') ws
      | "-print0", ws => goOn (.print '\x00') ws
      | "-delete", ws => goOn .delete ws
      | "-prune", ws => goOn .prune ws
      | "-quit", ws => goOn .quit ws
      | "-depth", ws => goOn (.always true) ws
      | "-exec", ws =>
        let arguments := ws.takeWhile fun a => a ≠ [';'] && a ≠ ['+']
        match ws.drop arguments.length with
        | ['+'] :: ws => goOn (.execute arguments.dropLast true) ws
        | _ :: ws => goOn (.execute arguments false) ws
        | [] => .error "missing argument to `-exec'".toList
      | name, ws =>
        if name.startsWith "-" then
          if ws.isEmpty ∧ ["-name", "-iname", "-path", "-type"].contains name then
            .error ("missing argument to `".toList ++ w ++ ['\''])
          else .error ("unknown predicate `".toList ++ w ++ ['\''])
        else .error ("paths must precede expression: '".toList ++ w ++ ['\''])
where
  /-- Reads the test after a negation. -/
  negate (fuel : Nat)
      (goOn : FindTest → List Octets → Except Octets (Option FindTest × List Octets))
      (ws : List Octets) : Except Octets (Option FindTest × List Octets) :=
    let words : Nat := match ws with
      | w :: _ =>
        if ["-name", "-iname", "-path", "-wholename", "-type"].contains (String.ofList w) then 2
        else if w = ['('] then (ws.takeWhile (· ≠ [')'])).length + 1
        else 1
      | [] => 0
    match fuel with
    | 0 => .ok (none, ws)
    | fuel + 1 => do
      let (t, _) ← readFindTests fuel none none (ws.take words)
      goOn (.negation (t.getD (.always true))) (ws.drop words)

/-- What becomes of a walk: the words for programs that are started in the end, whether what lies
below is left out, and whether the walk is over. -/
structure Walk where
  together : List Octets := []
  pruned : Bool := false
  finished : Bool := false
  status : Nat := 0

/-- Whether a test holds of a path, with what it does. -/
def FindTest.holds (inner : Interpreter) (p : FoundPath) (walk : Walk) :
    FindTest → Act (Bool × Walk)
  | .name pattern whole anyCase =>
    let text := if whole then p.written else baseName [] p.written
    return (globMatches pattern (if anyCase then text.map Char.toLower else text), walk)
  | .kind letter => do
    let found := match (← get).machine.disk.node? p.path with
      | some .directory => 'd'
      | some (.file _) => 'f'
      | some .null => 'c'
      | none => '?'
    return (letter = found, walk)
  | .isEmpty => do
    let d := (← get).machine.disk
    return (match d.node? p.path with
      | some .directory => (d.names p.path).isEmpty
      | some (.file content) => content.isEmpty
      | _ => false, walk)
  | .always b => return (b, walk)
  | .print ending => do
    let _ ← write 1 (p.written ++ [ending])
    return (true, walk)
  | .delete => do
    onMachine fun m => { m with disk := m.disk.removeTree p.path }
    return (true, walk)
  | .prune => return (true, { walk with pruned := true })
  | .quit => return (true, { walk with finished := true })
  | .execute arguments together => do
    if together then return (true, { walk with together := walk.together ++ [p.written] })
    else
      let mark := ['\x7b', '\x7d']
      let arguments := arguments.map fun a => withReplacement mark p.written (a.length + 1) a
      match (← get).launch? arguments with
      | .error e =>
        let _ ← write 2 ("find: ".toList ++ quotedName (arguments.headD []) ++ ": ".toList ++
          e.message ++ ['\n'])
        return (false, walk)
      | .ok _ =>
        let status ← startChild inner arguments
        return (status = .code 0, walk)
  | .negation t => do
    let (b, walk) ← holds inner p walk t
    return (!b, walk)
  | .both a b => do
    match ← holds inner p walk a with
    | (true, walk) => holds inner p walk b
    | r => return r
  | .either a b => do
    match ← holds inner p walk a with
    | (false, walk) => holds inner p walk b
    | r => return r

/-- The arguments of the programs that a test starts in the end. -/
def FindTest.endings : FindTest → List (List Octets)
  | .execute arguments true => [arguments]
  | .negation t => t.endings
  | .both a b => a.endings ++ b.endings
  | .either a b => a.endings ++ b.endings
  | _ => []

/-- Whether what lies in a directory is gone through before it. -/
def FindTest.depthFirst : FindTest → Bool
  | .delete => true
  | .negation t => t.depthFirst
  | .both a b => a.depthFirst || b.depthFirst
  | .either a b => a.depthFirst || b.depthFirst
  | _ => false

/-- The paths below one, in the order in which they are gone through. -/
def pathsBelow (d : Disk) (deepFirst : Bool) : Nat → FoundPath → List FoundPath
  | 0, p => [p]
  | fuel + 1, p =>
    let inside := if d.isDirectory p.path then
        (d.names p.path).flatMap fun name =>
          let written := if p.written.getLast? = some '/' then p.written ++ nameText name
            else p.written ++ '/' :: nameText name
          pathsBelow d deepFirst fuel ⟨written, p.path ++ [name], p.depth + 1⟩
      else []
    if deepFirst then inside ++ [p] else p :: inside

/-- Goes through the files that paths lead to. -/
def findLauncher : Launcher := fun inner _ arguments => do
  let isStart : Octets → Bool := fun a => a.head? != some '-' && a != ['!'] && a != ['(']
  let starts := arguments.takeWhile isStart
  let words := arguments.dropWhile isStart
  let number : String → Option Nat := fun name =>
    ((words.dropWhile (· ≠ name.toList)).drop 1).head?.bind Octets.toNat?
  let (least, most) := ((number "-mindepth").getD 0, number "-maxdepth")
  let rec without : List Octets → List Octets
    | w :: n :: ws =>
      if ["-mindepth", "-maxdepth"].contains (String.ofList w) then without ws
      else w :: without (n :: ws)
    | ws => ws
  match readFindTests (2 * words.length + 2) none none (without words) with
  | .error e => failing 1 ("find: ".toList ++ e)
  | .ok (t, _) =>
    let t := t.getD (.always true)
    let t := if t.acts then t else .both t (.print '\n')
    let d := (← get).machine.disk
    let starts := if starts.isEmpty then [['.']] else starts
    let visit : Walk × List Path → FoundPath → Act (Walk × List Path) := fun (walk, pruned) p => do
      let hidden := pruned.any fun q => Disk.within q p.path
      let inDepth := least ≤ p.depth &&
        (match most with | some n => decide (p.depth ≤ n) | none => true)
      if walk.finished || hidden || !inDepth then return (walk, pruned)
      else
        let (_, walk) ← t.holds inner p walk
        return ({ walk with pruned := false }, if walk.pruned then p.path :: pruned else pruned)
    let walkFrom : Walk → Octets → Act Walk := fun walk start => do
      match ((← get).resolve? start).map fun p => (p, d.node? p) with
      | some (p, some _) =>
        let paths := pathsBelow d t.depthFirst (d.entries.length + 1) ⟨start, p, 0⟩
        return (← paths.foldlM visit (walk, [])).1
      | _ =>
        let _ ← write 2 ("find: ".toList ++ quotedName start ++ ": ".toList ++
          FileFault.missing.message ++ ['\n'])
        return { walk with status := 1 }
    let walk ← starts.foldlM walkFrom {}
    t.endings.forM fun arguments => do
      if !walk.together.isEmpty then
        let _ ← startChild inner (arguments ++ walk.together)
    return .code walk.status

/-! ### Other programs -/

/-- Writes where programs are found. -/
def whichLauncher : Launcher := fun _ _ arguments =>
  withLauncherOptions "which" 2 ⟨"as", []⟩ arguments fun _ names => do
    names.foldlM (fun status name => do
      let s ← get
      match s.startable? s.searchPath name with
      | .ok (written, _) =>
        let _ ← write 1 (written ++ ['\n'])
        return status
      | .error _ => return .code 1) (.code (if names.isEmpty then 1 else 0))

/-- Does what a command of the shell does. -/
def builtinLauncher (run : List Octets → Act Nat) : Launcher := fun _ name arguments => do
  modify fun s => { s with name, command := none }
  try return .code (← run arguments)
  catch
    | .error => return .code (← lastStatus)
    | h => throw h

/-- The launchers but for the shell. -/
def launchers : List (String × Launcher) :=
  [("env", envLauncher), ("xargs", wordsLauncher), ("timeout", timeLauncher),
    ("nice", plainLauncher "nice" "n:" 0), ("nohup", plainLauncher "nohup" "" 0),
    ("setsid", plainLauncher "setsid" "cfw" 0), ("stdbuf", plainLauncher "stdbuf" "i:o:e:" 0),
    ("find", findLauncher), ("which", whichLauncher), ("kill", builtinLauncher kill),
    ("test", builtinLauncher (testWords false)), ("[", builtinLauncher (testWords true))]

end Shell
end ImagePolicy
