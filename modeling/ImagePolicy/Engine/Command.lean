/-
# Rule engines run as commands

A rule engine is a program. For each evaluation a workspace is made, the rule files are copied
into its policy directory under their own names, the configuration is written, and the program is
started with the workspace in its environment and the input after its arguments. What it prints
has to be a list of check groups, and it has to end well. However the evaluation ends, the
workspace is released.

What starting a program does is a parameter, a `Host`, so that what is said here holds for any. The
one under `Shell` is for running engines only.

Key definitions: `Host`, `EngineCommand`, `EngineCommand.stage`, `EngineCommand.evaluate`.
-/
import ImagePolicy.Scratch.Workspace
import ImagePolicy.Engine.Signal
import ImagePolicy.Error
import ImagePolicy.Rule.Result
import ImagePolicy.Text.Blank

namespace ImagePolicy

/-- Whether a run is called off: it is already, or it will be after so many milliseconds of an
engine's work. -/
structure Token where
  cancelled : Bool := false
  deadline : Option Nat := none
  deriving DecidableEq, Repr, Inhabited

/-- The token once it is cancelled. -/
def Token.cancel (t : Token) : Token := { t with cancelled := true }

/-- Whether a token is cancelled while an engine works for so many milliseconds. -/
def Token.expires (t : Token) (duration : Nat) : Bool :=
  match t.deadline with
  | some deadline => deadline < duration
  | none => false

/-- How a program ends. -/
inductive ExitStatus where
  | code (n : Nat)
  | signal (n : Nat)
  deriving DecidableEq, Repr

/-- The wording of an exit status. -/
def ExitStatus.message : ExitStatus → String
  | .code n => "exit status: " ++ toString n
  | .signal n =>
    "signal: " ++ toString n ++
      (match Signal.ofNumber? n with | some s => " (SIG" ++ s.name ++ ")" | none => "")

/-- A program, its arguments, and what is added to its environment. -/
structure Invocation where
  program : String
  arguments : List String
  environment : List (String × String)

/-- A program that has ended. -/
structure Finished where
  status : ExitStatus
  output : Bytes
  errors : Bytes
  duration : Nat
  disk : Disk

/-- What starting a program does; a program that cannot be started does nothing. -/
abbrev Host := Invocation → Disk → Option Finished

/-- The environment variable of the workspace. -/
def workspaceVariable : String := "CUSTOS_WORKSPACE"

/-- The environment variable of the rule directory. -/
def policyVariable : String := "CUSTOS_POLICY_DIR"

/-- The environment variable of the data directory. -/
def dataVariable : String := "CUSTOS_DATA_DIR"

/-- A rule engine run as a command. -/
structure EngineCommand where
  program : String
  arguments : List String := []
  rules : List String := []
  retain : Bool := false
  deriving DecidableEq, Repr

namespace EngineCommand

/-- Copies a rule file into the policy directory. -/
def copyRule (w : Workspace) (rule : String) (d : Disk) : Except CollaboratorError Disk :=
  match fileName? rule with
  | none => .error (.failed ("rule path `" ++ rule ++ "` has no file name"))
  | some name =>
    match (d.resolve? rule).bind d.fileContent? with
    | none => .error (.io none)
    | some content =>
      match d.write? (w.policyDirectory ++ [name]) content with
      | none => .error (.io none)
      | some d => .ok d

/-- Copies rule files in order; the first that cannot be copied ends it. -/
def copyRules (w : Workspace) : List String → Disk → Except CollaboratorError Unit × Disk
  | [], d => (.ok (), d)
  | rule :: rules, d =>
    match copyRule w rule d with
    | .error e => (.error e, d)
    | .ok d => copyRules w rules d

/-- Copies the rule files and writes the configuration. -/
def stage (cmd : EngineCommand) (w : Workspace) (c : PolicyContext) (d : Disk) :
    Except CollaboratorError Unit × Disk :=
  match copyRules w cmd.rules d with
  | (.error e, d) => (.error e, d)
  | (.ok (), d) =>
    match w.writeConfig? c d with
    | none => (.error (.io none), d)
    | some d => (.ok (), d)

/-- The program with its environment and the input after its arguments. -/
def invocation (cmd : EngineCommand) (w : Workspace) (inputs : List Path) : Invocation where
  program := cmd.program
  arguments := cmd.arguments ++ inputs.map Path.text
  environment :=
    [(workspaceVariable, w.root.text), (policyVariable, w.policyDirectory.text),
      (dataVariable, w.dataDirectory.text)]

/-- The groups that a program printed. -/
def groupsOf? (output : Bytes) : Option (List CheckGroup) :=
  (Json.read (Utf8.decode output)).bind CheckGroup.listOfTree?

/-- What the end of the program means. -/
def reply (cmd : EngineCommand) (f : Finished) : Reply (List CheckGroup) :=
  if f.status = .code 0 then
    match groupsOf? f.output with
    | some groups => .ok groups
    | none => .error (.failed ("unreadable output from `" ++ cmd.program ++ "`"))
  else
    let told := String.ofList (Text.trim (Utf8.lossy f.errors))
    .error (.failed ("`" ++ cmd.program ++ "` exited with " ++ f.status.message ++ ": " ++ told))

/-- What a started program comes to: a token that expires while it works wins over its end. -/
def outcome (cmd : EngineCommand) (t : Token) (f : Finished) : Reply (List CheckGroup) :=
  if t.expires f.duration then .error .cancelled else cmd.reply f

/-- One evaluation of some inputs. -/
def evaluate (host : Host) (cmd : EngineCommand) (inputs : List Path) (c : PolicyContext)
    (t : Token) (d : Disk) : Reply (List CheckGroup) × Disk :=
  if t.cancelled then (.error .cancelled, d)
  else
    let (w, d) := Workspace.create cmd.retain d
    match cmd.stage w c d with
    | (.error e, d) => (.error e, (w.release d).2)
    | (.ok (), d) =>
      match host (cmd.invocation w inputs) d with
      | none =>
        (.error (.failed ("failed to start `" ++ cmd.program ++ "`")), (w.release d).2)
      | some f => (cmd.outcome t f, (w.release f.disk).2)

end EngineCommand
end ImagePolicy
