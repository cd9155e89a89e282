/-
# Verifying an image

The checks of one image in their fixed order. The image has to be within reach, its digest has to
be resolved, and its attestations have to be verified; the image's own signature and the shape of
the statements are noted and stop nothing. Of the attestations those count whose statement is
well-formed and has the image as a subject. They fix the effective time, if it is open, and are
the input of the rule engines, whose results are classified. Without any of them the policy fails.

What fails in this way is in the report. A run without report was cancelled, or a collaborator
that has to answer did not. Every evaluator is released in the end, and the staged input is
removed, whatever happens.

Key definitions: `Pipeline`, `Pipeline.run`, `Pipeline.validate`, `Pipeline.validateAll`.
-/
import ImagePolicy.Pipeline.Collaborator
import ImagePolicy.Reference.Parser
import ImagePolicy.Attestation.Statement
import ImagePolicy.Attestation.Context
import ImagePolicy.Rule.Classifier
import ImagePolicy.Report

namespace ImagePolicy

/-- How a run ends. -/
abbrev Verdict := Except VerificationError Report

/-- The message when no attestation is about the image. -/
def noMatchingAttestation : String :=
  "No attestations contain a subject that match the given image."

/-- The policy check when no attestation is about the image. -/
def noMatchCheck : List CheckGroup :=
  [{ failures := [{ message := noMatchingAttestation }] }]

/-- The wording that a reply is reported with. -/
def CollaboratorError.told (e : CollaboratorError) : String :=
  e.message?.getD ""

/-- The status of the image's signature. -/
def signatureStatus : Reply (List Signature) → StageStatus
  | .ok _ => .pass "Image signature check passed"
  | .error e => .fail ("Image signature check failed: " ++ e.told)

/-- The status of the shape of the statements. -/
def shapeStatus (faults : List IndexedFault) : StageStatus :=
  if faults.isEmpty then .pass "Attestation syntax check passed"
  else
    .fail ("Attestation syntax check failed: " ++
      "; ".intercalate (faults.map IndexedFault.message))

/-- The signatures that are reported: the image's, or those of its attestations if it has none that
verify. -/
def reportedSignatures (image : Reply (List Signature)) (as : List Attestation) : List Signature :=
  match image with
  | .ok signatures => signatures
  | .error _ => as.flatMap Attestation.signatures

/-- A verifier, rule engines in order, and a writer for their input. -/
structure Pipeline where
  verifier : ImageVerifier
  evaluators : List Evaluator
  writer : InputWriter

namespace Pipeline

/-- The results of evaluators, from an index on; the first that fails ends it. -/
def evaluateAll (input : Path) (c : PolicyContext) :
    Nat → List Evaluator → Session → Except VerificationError (List CheckGroup) × Session
  | _, [], s => (.ok [], s)
  | index, e :: es, s =>
    match s.evaluate index e input c with
    | (.error err, s) => (.error (.ofCollaborator .ruleEvaluation err), s)
    | (.ok groups, s) =>
      match evaluateAll input c (index + 1) es s with
      | (.error err, s) => (.error err, s)
      | (.ok more, s) => (.ok (groups ++ more), s)

/-- The report with the classified results of the evaluators. -/
def classified (report : Report) (c : PolicyContext) :
    Except VerificationError (List CheckGroup) → Verdict
  | .error err => .error err
  | .ok groups =>
    match (Classifier.ofContext c).classify? groups with
    | some classified => .ok { report with policyCheck := classified }
    | none => .error .noResults

/-- Stages the attestations that count, asks the evaluators, and classifies what they say. -/
def evaluatePolicy (p : Pipeline) (report : Report) (c : PolicyContext) (as : List Attestation)
    (s : Session) : Verdict × Session :=
  let s := s.note (.writeInput as.length)
  match p.writer as s.disk with
  | .error err => (.error err, s)
  | .ok (staged, disk) =>
    let (results, s) := evaluateAll staged.path c 0 p.evaluators { s with disk }
    (classified report c results, { s with disk := staged.release s.disk })

/-- Sorts the verified attestations and judges the image by those that count. -/
def judge (p : Pipeline) (report : Report) (image : ImageReference) (c : PolicyContext)
    (signatures : Reply (List Signature)) (as : List Attestation) (s : Session) :
    Verdict × Session :=
  let (valid, faults) := partitionByShape as
  let counted := matching (image.digestHex.getD "") valid
  let c := c.attested counted
  let report := { report with
    attestationSignature := some (.pass "Image attestation check passed")
    signatures := reportedSignatures signatures as
    attestationShape := some (shapeStatus faults)
    effectiveTime := some c.instant }
  if counted.isEmpty then (.ok { report with policyCheck := noMatchCheck }, s)
  else p.evaluatePolicy report c counted s

/-- Asks for the attestations of a resolved image. -/
def verifyAttestations (p : Pipeline) (report : Report) (image : ImageReference)
    (c : PolicyContext) (signatures : Reply (List Signature)) (s : Session) : Verdict × Session :=
  match s.ask (.attestations image c.publicKey c.rekorUrl) (p.verifier.attestations image c) with
  | (.error .cancelled, s) => (.error (.cancelled .attestationSignatures), s)
  | (.error err, s) =>
    let status := StageStatus.fail ("Image attestation check failed: " ++ err.told)
    (.ok { report with attestationSignature := some status }, s)
  | (.ok as, s) => p.judge report image c signatures as s

/-- Asks for the signatures of a resolved image. -/
def verifySignatures (p : Pipeline) (report : Report) (image : ImageReference) (c : PolicyContext)
    (s : Session) : Verdict × Session :=
  match s.ask (.imageSignatures image c.publicKey c.rekorUrl)
    (p.verifier.imageSignatures image c) with
  | (.error .cancelled, s) => (.error (.cancelled .imageSignatures), s)
  | (signatures, s) =>
    let report := { report with imageSignature := some (signatureStatus signatures) }
    p.verifyAttestations report image c signatures s

/-- Asks for the digest of an image within reach. -/
def resolveDigest (p : Pipeline) (report : Report) (image : ImageReference) (c : PolicyContext)
    (s : Session) : Verdict × Session :=
  match s.ask (.digest image) (p.verifier.digest image) with
  | (.error err, s) => (.error (.ofCollaborator .digestResolution err), s)
  | (.ok digest, s) =>
    match image.resolve digest with
    | .error fault => (.error (.reference (image.withDigest digest) fault), s)
    | .ok resolved =>
      p.verifySignatures { report with imageUrl := resolved.render } resolved c s

/-- Asks whether an image is within reach. -/
def probe (p : Pipeline) (url : String) (image : ImageReference) (c : PolicyContext) (s : Session) :
    Verdict × Session :=
  let report : Report := { imageUrl := url }
  match s.ask (.probe image) (p.verifier.probe image) with
  | (.error .cancelled, s) => (.error (.cancelled .imageAccess), s)
  | (.error err, s) =>
    let status := StageStatus.fail ("Image URL is not accessible: " ++ err.told)
    (.ok { report with imageAccessible := some status }, s)
  | (.ok (), s) =>
    let status := StageStatus.pass "Image URL is accessible"
    p.resolveDigest { report with imageAccessible := some status } image c s

/-- The checks of one image, without the release at the end. -/
def run (p : Pipeline) (url : String) (c : PolicyContext) (s : Session) : Verdict × Session :=
  match ImageReference.parse url with
  | .error fault => (.error (.reference url fault), s)
  | .ok image => p.probe url image c s

/-- Verifies one image; every evaluator is released in the end. -/
def validate (p : Pipeline) (url : String) (c : PolicyContext) (s : Session) : Verdict × Session :=
  let (verdict, s) := p.run url c s
  (verdict, s.releaseAll p.evaluators.length)

end Pipeline

/-! ### Runs one after the other -/

/-- An image to verify, and who is asked about it. -/
structure ImageRun where
  url : String
  verifier : ImageVerifier
  writer : InputWriter
  cancelled : Bool := false

/-- How a run ended, the calls it made, and its token and the disk at its end. -/
structure RunRecord where
  verdict : Verdict
  calls : List Call
  token : Token
  disk : Disk

namespace Pipeline

/-- One run with a token of its own; disk and evaluators go on from where they are. -/
def validateRun (evaluators : List Evaluator) (c : PolicyContext) (r : ImageRun) (s : Session) :
    RunRecord × Session :=
  let s := { s with token := { cancelled := r.cancelled }, calls := [] }
  let (verdict, s) := validate ⟨r.verifier, evaluators, r.writer⟩ r.url c s
  (⟨verdict, s.calls, s.token, s.disk⟩, s)

/-- Runs one after the other, each with the same context. -/
def validateAll (evaluators : List Evaluator) (c : PolicyContext) :
    List ImageRun → Session → List RunRecord × Session
  | [], s => ([], s)
  | r :: rs, s =>
    let (record, s) := validateRun evaluators c r s
    let (records, s) := validateAll evaluators c rs s
    (record :: records, s)

end Pipeline
end ImagePolicy
