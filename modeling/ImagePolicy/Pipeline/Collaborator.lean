/-
# Collaborators of a pipeline

Whom a pipeline asks: a verifier for the image, rule engines for the results, and a writer that
stages the input. A collaborator is asked with the run's token and may cancel it. Every question
is noted as a call, so that a run can be told from outside.

Key definitions: `ImageVerifier`, `Evaluator`, `InputWriter`, `Call`, `Session`.
-/
import ImagePolicy.Engine.Command
import ImagePolicy.Scratch.StagedInput

namespace ImagePolicy

/-- A question to a collaborator: its reply, and the token after it. -/
abbrev Ask (α : Type) := Token → Reply α × Token

/-- Access to the registry, and verification of signatures. -/
structure ImageVerifier where
  probe : ImageReference → Ask Unit
  digest : ImageReference → Ask String
  imageSignatures : ImageReference → PolicyContext → Ask (List Signature)
  attestations : ImageReference → PolicyContext → Ask (List Attestation)

/-- A rule engine. What it replies may depend on how often it was asked before. -/
structure Evaluator where
  evaluate : Nat → Path → PolicyContext → Token → Disk →
    Reply (List CheckGroup) × Token × Disk

/-- Stages the input of the rule engines. -/
abbrev InputWriter := List Attestation → Disk → Except VerificationError (StagedInput × Disk)

/-- The writer that stages the statements as JSON. -/
def jsonWriter : InputWriter := fun as d => .ok (StagedInput.stage as d)

/-- A rule engine that is a command. -/
def EngineCommand.evaluator (host : Host) (cmd : EngineCommand) : Evaluator where
  evaluate _ input c t d :=
    let (reply, d) := cmd.evaluate host [input] c t d
    (reply, t, d)

/-- A question that was asked. An evaluation is noted with the document that stood at its input. -/
inductive Call where
  | probe (image : ImageReference)
  | digest (image : ImageReference)
  | imageSignatures (image : ImageReference) (publicKey : String) (rekorUrl : Option String)
  | attestations (image : ImageReference) (publicKey : String) (rekorUrl : Option String)
  | writeInput (count : Nat)
  | evaluate (evaluator : Nat) (input : Path) (document : Option Bytes) (time : EffectiveTime)
  | release (evaluator : Nat)
  deriving DecidableEq, Repr

/-- What a run changes: the disk, the token, how often each evaluator was asked, and the calls. -/
structure Session where
  disk : Disk
  token : Token
  turns : Nat → Nat
  calls : List Call

namespace Session

/-- The session before the first run. -/
def initial (d : Disk) : Session := ⟨d, {}, fun _ => 0, []⟩

/-- The session with one more call. -/
def note (s : Session) (call : Call) : Session :=
  { s with calls := s.calls ++ [call] }

/-- Asks a collaborator and notes the call. -/
def ask {α : Type} (s : Session) (call : Call) (question : Ask α) : Reply α × Session :=
  let (reply, token) := question s.token
  (reply, { s.note call with token })

/-- Asks an evaluator and notes the call. -/
def evaluate (s : Session) (index : Nat) (e : Evaluator) (input : Path) (c : PolicyContext) :
    Reply (List CheckGroup) × Session :=
  let s := s.note (.evaluate index input (s.disk.content? input) c.effectiveTime)
  let (reply, token, disk) := e.evaluate (s.turns index) input c s.token s.disk
  (reply, { s with
    token, disk, turns := fun i => if i = index then s.turns i + 1 else s.turns i })

/-- Notes the release of as many evaluators, in order. -/
def releaseAll (s : Session) (count : Nat) : Session :=
  { s with calls := s.calls ++ (List.range count).map Call.release }

end Session
end ImagePolicy
