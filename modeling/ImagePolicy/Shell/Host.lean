/-
# Programs that can be started

A host with a shell and the tools of scripts as its programs, found by name in the directories of
programs, and with the files that can be run. Programs read nothing. What is none of them cannot be
started; nor can a file that names no program to run it.

This host is one of many: it is what the command line starts rule engines with. The shell and its
tools are on the outside of the model, nothing is proved of them, and what is proved of the library
is proved for any `Host`.

Key definitions: `Shell.startState`, `Shell.host`.
-/
import ImagePolicy.Shell.Run

namespace ImagePolicy
namespace Shell

/-- How deep the parts of scripts, functions and programs may lie in one another. -/
def depthLimit : Nat := 10000

/-- The number of the process that a host starts. -/
def hostedProcess : Nat := 1000

/-- The variables that a host has if it is told no others. -/
def usualEnvironment : List (String × String) :=
  [("HOME", "/root"), ("PATH", String.ofList usualSearchPath)]

/-- A process before it becomes the program: its streams are one that is empty and two sinks. -/
def startState (environment : List (String × String)) (d : Disk) : State where
  machine :=
    { disk := d
      streams := #[.null, .sink [], .sink []]
      now := 0
      lastProcess := hostedProcess
      sent := []
      jobs := [] }
  process := hostedProcess
  main := hostedProcess
  ancestors := []
  name := []
  operands := []
  bindings := environment.foldl (fun bs (name, value) =>
    let name := Octets.ofString name
    bs.filter (·.1 ≠ name) ++ [(name, ⟨some (Octets.ofString value), true, false⟩)]) []
  descriptors := [(0, 0), (1, 1), (2, 2)]
  directory := Disk.workingDirectory

/-- How a program has ended. One that goes on forever takes longer than anybody waits. -/
def finished (result : Except Halt ExitStatus) (s : State) : Finished :=
  let (status, isEndless) : ExitStatus × Bool := match result with
    | .ok status => (status, false)
    | .error (.ended status) => (status, false)
    | .error .endless => (.code 0, true)
    | .error _ => (.code s.status, false)
  { status
    output := Octets.toBytes (s.machine.collect 1)
    errors := Octets.toBytes (s.machine.collect 2)
    duration := if isEndless then forever else s.machine.lastEnd
    disk := s.machine.disk }

/-- Whether a host can start a name. -/
def canStart (s : State) (name : Octets) : Bool :=
  match s.startable? s.searchPath name with
  | .ok (_, .script none) => false
  | .ok _ => true
  | .error _ => false

/-- Starts a program in an environment. No argument can hold a zero byte. -/
def host (environment : List (String × String)) : Host := fun i d =>
  let s := startState (usualEnvironment ++ environment ++ i.environment) d
  let name := Octets.ofString i.program
  let arguments := i.arguments.map Octets.ofString
  if name.isEmpty ∨ (name :: arguments).any (·.contains '\x00') ∨ !canStart s name then none
  else
    let (result, s) := startAt depthLimit (name :: arguments) s
    some (finished result s)

end Shell
end ImagePolicy
