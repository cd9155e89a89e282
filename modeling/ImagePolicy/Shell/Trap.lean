/-
# Signals and traps

A signal that reaches a shell is ignored, caught for the action that traps it, or does what it does
to any program. Caught signals are acted on between commands. A shell that ends runs the action for
its end first, unless a signal ends it or another program takes its place.

Key definitions: `Shell.meetSignal`, `Shell.runTraps`, `Shell.ending`, `Shell.runChild`.
-/
import ImagePolicy.Shell.State

namespace ImagePolicy
namespace Shell

/-- The number under which the action for the end is kept. -/
def endOfShell : Nat := 0

/-- What a signal does to the shell. -/
def meetSignal (n : Nat) : Act Unit := do
  let s ← get
  let untrapped : Act Unit :=
    match Signal.effectOf n with
    | .ends => throw (.ended (.signal n))
    | .ignored => return ()
    | .stops => throw .endless
  if n = Signal.kill then untrapped
  else if s.inherited.contains n then return ()
  else match s.traps.lookup n with
    | some [] => return ()
    | some _ => set { s with caught := n :: s.caught.filter (· ≠ n) }
    | none => untrapped

/-- Takes the signals that have been sent to the process up to now. -/
def takeSignals : Act Unit := do
  let s ← get
  let isDue : Sent → Bool := fun n => n.process = s.process && n.time ≤ s.machine.now
  let due := s.machine.sent.filter isDue
  if !due.isEmpty then
    onMachine fun m => { m with sent := m.sent.filter fun n => !isDue n }
    due.forM fun n => meetSignal n.signal

/-- Runs the action of a caught signal. The status is then what it was, unless a function is
returned from. -/
def runTrap (inner : Interpreter) (n : Nat) : Act Unit := do
  let s ← get
  match s.traps.lookup n with
  | none => return ()
  | some action =>
    let status := s.saved.getD s.status
    set { s with saved := some status }
    inner.text false action
    if (← get).skip ≠ .returning then setStatus status
    modify fun t => { t with saved := s.saved }

/-- Runs the actions of caught signals. -/
def runTraps (inner : Interpreter) : Act Unit := do
  let s ← get
  if !s.caught.isEmpty && s.skip = .nothing then
    set { s with caught := [] }
    (s.caught.mergeSort fun a b => decide (a ≤ b)).forM (runTrap inner)

/-- Runs the action for the end of the shell, and comes to how the process ends. -/
def runEndTrap (inner : Interpreter) : Act ExitStatus := do
  let s ← get
  let finish : Act ExitStatus := return .code ((← lastStatus) % 256)
  match s.traps.lookup endOfShell with
  | none => finish
  | some action =>
    set { s with
      traps := s.traps.filter fun t => t.1 ≠ endOfShell
      skip := .nothing, saved := some s.status }
    try
      inner.text false action
      setStatus s.status
    catch
      | .ended status => throw (.ended status)
      | .endless => throw .endless
      | _ => pure ()
    finish

/-- Runs something to the end of the shell. -/
def ending (inner : Interpreter) (body : Act Unit) : Act ExitStatus := do
  try body
  catch
    | .ended status => throw (.ended status)
    | .endless => throw .endless
    | _ => pure ()
  runEndTrap inner

/-- Runs something in a shell of its own. -/
def runChild (inner : Interpreter) (start : State → State) (body : Act Unit) :
    Act ExitStatus := do
  let status ← inProcess start (ending inner body)
  takeSignals
  return status

/-- The status that the end of a process waited for gives; an end by a signal is told. -/
def tellEnd (status : ExitStatus) : Act Nat := do
  match status with
  | .signal n =>
    if n ≠ 2 ∧ n ≠ 13 then
      let _ ← write 2 ((Signal.wordingOf n).toList ++ ['\n'])
  | .code _ => pure ()
  return statusOf status

end Shell
end ImagePolicy
