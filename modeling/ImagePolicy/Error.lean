/-
# What stops a verification

A failed signature or an image out of reach is no error: it goes into the report. The errors here
mean that a run could not come to an end. A collaborator, that is the registry, the signature
check or a rule engine, fails, is cancelled, or meets a fault of input and output. The wording of
such a fault is the system's own, so it may be unknown, and then so is the wording of the error
that carries it.

Key definitions: `CollaboratorError`, `Stage`, `VerificationError`, `VerificationError.message?`.
-/
import ImagePolicy.Reference.Basic
import ImagePolicy.Policy.Context

namespace ImagePolicy

/-- How a collaborator fails. -/
inductive CollaboratorError where
  | failed (text : String)
  | cancelled
  | io (text : Option String)
  deriving DecidableEq, Repr

/-- The wording of a collaborator's error. -/
def CollaboratorError.message? : CollaboratorError → Option String
  | .failed text => some text
  | .cancelled => some "operation cancelled"
  | .io text => text

/-- What a collaborator replies. -/
abbrev Reply (α : Type) := Except CollaboratorError α

/-- The stages that ask a collaborator. -/
inductive Stage where
  | imageAccess
  | digestResolution
  | imageSignatures
  | attestationSignatures
  | ruleEvaluation
  deriving DecidableEq, Repr

/-- The name of a stage. -/
def Stage.name : Stage → String
  | .imageAccess => "image access check"
  | .digestResolution => "digest resolution"
  | .imageSignatures => "image signature check"
  | .attestationSignatures => "attestation signature check"
  | .ruleEvaluation => "rule evaluation"

/-- Why a run did not come to an end. -/
inductive VerificationError where
  | reference (text : String) (fault : ReferenceFault)
  | policy (fault : PolicyFault)
  | effectiveTime (value : String) (fault : TimeFault)
  | collaborator (stage : Stage) (source : CollaboratorError)
  | cancelled (stage : Stage)
  | noResults
  | io (text : Option String)
  deriving DecidableEq, Repr

namespace VerificationError

/-- The error of a stage whose collaborator fails; a cancelled one cancels the run. -/
def ofCollaborator (stage : Stage) : CollaboratorError → VerificationError
  | .cancelled => .cancelled stage
  | source => .collaborator stage source

/-- The error of a context that cannot be made. -/
def ofContext : ContextFault → VerificationError
  | .policy fault => .policy fault
  | .effectiveTime value fault => .effectiveTime value fault

/-- The wording of an error, as far as it is the library's. -/
def message? : VerificationError → Option String
  | .reference text fault => some ("invalid image reference `" ++ text ++ "`: " ++ fault.message)
  | .policy fault => some ("invalid policy: " ++ fault.message)
  | .effectiveTime value fault =>
    some ("invalid effective time `" ++ value ++ "`: " ++ fault.message)
  | .collaborator stage source => source.message?.map fun text => stage.name ++ " failed: " ++ text
  | .cancelled stage => some ("verification cancelled during " ++ stage.name)
  | .noResults => some "no successes, warnings, or failures, check input"
  | .io text => text.map ("verification I/O error: " ++ ·)

end VerificationError
end ImagePolicy
