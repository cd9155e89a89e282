/-
# Reports

Everything known about one image after a run: how each stage went, the classified rule results,
the signatures, and the effective time. A stage that never ran has no status. What blocks are the
messages of failed stages, in the order of the stages, and then the failures of the rules.

Key definitions: `StageStatus`, `Report`, `Report.violations`, `Report.passed`, `Report.encode`.
-/
import ImagePolicy.Rule.Result
import ImagePolicy.Attestation.Record

namespace ImagePolicy

open Json (Value)

/-- How a stage went, and a message about it. -/
structure StageStatus where
  passed : Bool
  result : Option RuleResult := none

namespace StageStatus

/-- A stage that passed. -/
def pass (message : String) : StageStatus := ⟨true, some { message }⟩

/-- A stage that failed. -/
def fail (message : String) : StageStatus := ⟨false, some { message }⟩

/-- The message of a stage that failed. -/
def violation? (s : StageStatus) : Option RuleResult :=
  if s.passed then none else s.result

/-- The value of a status. -/
def encode (s : StageStatus) : Value :=
  Row.encode ["passed", "result"] [some (.bool s.passed), s.result.map RuleResult.encode]

end StageStatus

/-- What is known about an image. -/
structure Report where
  imageUrl : String
  imageAccessible : Option StageStatus := none
  imageSignature : Option StageStatus := none
  attestationSignature : Option StageStatus := none
  attestationShape : Option StageStatus := none
  policyCheck : List CheckGroup := []
  signatures : List Signature := []
  effectiveTime : Option Instant := none

namespace Report

/-- The stages before the policy, in order. -/
def stages (r : Report) : List (Option StageStatus) :=
  [r.imageAccessible, r.imageSignature, r.attestationSignature, r.attestationShape]

/-- The messages of the stages that failed. -/
def stageViolations (r : Report) : List RuleResult :=
  r.stages.filterMap fun s => s.bind StageStatus.violation?

/-- What blocks. -/
def violations (r : Report) : List RuleResult :=
  r.stageViolations ++ r.policyCheck.flatMap CheckGroup.failures

/-- The warnings of the rules. -/
def warnings (r : Report) : List RuleResult :=
  r.policyCheck.flatMap CheckGroup.warnings

/-- The successes of the rules. -/
def successes (r : Report) : List RuleResult :=
  r.policyCheck.flatMap CheckGroup.successes

/-- Nothing blocks. -/
def passed (r : Report) : Bool :=
  r.violations.isEmpty

/-- The fields in the order they are written. -/
def fields : List String :=
  ["imageUrl", "imageAccessibleCheck", "imageSignatureCheck", "attestationSignatureCheck",
    "attestationSyntaxCheck", "policyCheck", "signatures", "effectiveTime"]

/-- The value of a report; what never came about is left out. -/
def encode (r : Report) : Value :=
  Row.encode fields
    [some (.text r.imageUrl), r.imageAccessible.map StageStatus.encode,
      r.imageSignature.map StageStatus.encode, r.attestationSignature.map StageStatus.encode,
      r.attestationShape.map StageStatus.encode, Field.writeList CheckGroup.encode r.policyCheck,
      Field.writeList Signature.encode r.signatures, r.effectiveTime.map fun i => .text i.text]

end Report
end ImagePolicy
