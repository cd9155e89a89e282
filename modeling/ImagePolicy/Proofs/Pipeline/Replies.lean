/-
# What a run goes by

A run asks its collaborators one after the other and stops asking when a reply ends it. Suppose
they were all asked in turn, whatever they reply: `Pipeline.replies` is what is then heard. How the
run ends is a function of these replies (`Replies.verdict`), and so are its calls: they are the
questions of `Replies.steps`, up to the first whose reply ends the run (`Through`). Neither of the
two asks anybody, so what holds of all runs can be shown of all replies.

A verdict is a row of gates, one for each question: a gate lets the run go on, or it ends the run
with a report or an error of its own.

Key definitions: `Replies`, `Replies.verdict`, `Replies.steps`, `Through`, `Pipeline.replies`.
Key theorem: `Pipeline.run_goes`.
-/
import ImagePolicy.Pipeline.Run
import ImagePolicy.Proofs.Reference.Digest
import ImagePolicy.Proofs.Attestation.Counting

namespace ImagePolicy

/-! ### Gates -/

/-- An image out of reach is reported, and nothing more is. -/
def probeGate (url : String) (reply : Reply Unit) (next : Verdict) : Verdict :=
  match reply with
  | .error .cancelled => .error (.cancelled .imageAccess)
  | .error err =>
    .ok {
      imageUrl := url
      imageAccessible := some (.fail ("Image URL is not accessible: " ++ err.told)) }
  | .ok () => next

/-- Without a digest there is no report. -/
def digestGate (image : ImageReference) (reply : Reply String) (next : Verdict) : Verdict :=
  match reply with
  | .error err => .error (.ofCollaborator .digestResolution err)
  | .ok digest =>
    match image.resolve digest with
    | .error fault => .error (.reference (image.withDigest digest) fault)
    | .ok _ => next

/-- The image's signatures end a run only if it is cancelled. -/
def signatureGate (reply : Reply (List Signature)) (next : Verdict) : Verdict :=
  match reply with
  | .error .cancelled => .error (.cancelled .imageSignatures)
  | _ => next

/-- Attestations that do not verify are reported, and then nothing more is. -/
def attestationGate (report : Report) (reply : Reply (List Attestation))
    (next : List Attestation → Verdict) : Verdict :=
  match reply with
  | .error .cancelled => .error (.cancelled .attestationSignatures)
  | .error err =>
    .ok { report with
      attestationSignature := some (.fail ("Image attestation check failed: " ++ err.told)) }
  | .ok as => next as

/-- The results of evaluators, unless one of them fails; then the first that does. -/
def gather : List (Reply (List CheckGroup)) → Except VerificationError (List CheckGroup)
  | [] => .ok []
  | .error err :: _ => .error (.ofCollaborator .ruleEvaluation err)
  | .ok groups :: replies =>
    match gather replies with
    | .error err => .error err
    | .ok more => .ok (groups ++ more)

/-- What the policy says of attestations that count, from the replies of the writer and of the
evaluators: checks for the report, or the error that takes its place. -/
def policyOutcome (c : PolicyContext) (counted : List Attestation)
    (staging : Except VerificationError (StagedInput × Disk))
    (evaluations : List (Call × Reply (List CheckGroup))) :
    Except VerificationError (List CheckGroup) :=
  if counted.isEmpty then .ok noMatchCheck
  else
    match staging with
    | .error err => .error err
    | .ok _ =>
      match gather (evaluations.map Prod.snd) with
      | .error err => .error err
      | .ok groups =>
        match (Classifier.ofContext c).classify? groups with
        | some checks => .ok checks
        | none => .error .noResults

/-- A report with what is known of the attestations, and the checks of the policy. -/
def Report.judged (report : Report) (c : PolicyContext) (signatures : Reply (List Signature))
    (as : List Attestation) (checks : List CheckGroup) : Report :=
  { report with
    attestationSignature := some (.pass "Image attestation check passed")
    signatures := reportedSignatures signatures as
    attestationShape := some (shapeStatus (partitionByShape as).2)
    effectiveTime := some c.instant
    policyCheck := checks }

/-! ### Replies -/

/-- What the collaborators of a run reply when all of them are asked in turn. An evaluation stands
with the call that asks for it. -/
structure Replies where
  probe : Reply Unit
  digest : Reply String
  imageSignatures : Reply (List Signature)
  attestations : Reply (List Attestation)
  staging : Except VerificationError (StagedInput × Disk)
  evaluations : List (Call × Reply (List CheckGroup))

/-- An evaluation as a step: a run goes on after it if it has results. -/
def evaluationStep (e : Call × Reply (List CheckGroup)) : Call × Prop :=
  (e.1, ∃ groups, e.2 = .ok groups)

namespace Replies

variable (r : Replies) (image : ImageReference) (c : PolicyContext)

/-- The image by the digest that was replied. -/
def resolved : ImageReference := image.pinned (r.digest.toOption.getD "")

/-- The hexadecimal part of that digest. -/
def hex : String :=
  ((dropFront? digestScheme (r.digest.toOption.getD "").toList).map .ofList).getD ""

/-- The attestations that count. -/
def counted : List Attestation := counting r.hex (r.attestations.toOption.getD [])

/-- The context that the attestations leave. -/
def governed : PolicyContext := c.attested r.counted

/-- All results of the evaluators. -/
def groups : List CheckGroup := r.evaluations.flatMap fun e => e.2.toOption.getD []

/-- What the policy says. -/
def outcome : Except VerificationError (List CheckGroup) :=
  policyOutcome (r.governed c) r.counted r.staging r.evaluations

/-- The report as it is before the attestations are asked for. -/
def begun : Report where
  imageUrl := (r.resolved image).render
  imageAccessible := some (.pass "Image URL is accessible")
  imageSignature := some (signatureStatus r.imageSignatures)

/-- How a run with these replies ends. -/
def verdict (url : String) : Verdict :=
  probeGate url r.probe <| digestGate image r.digest <| signatureGate r.imageSignatures <|
    attestationGate (r.begun image) r.attestations fun as =>
      (r.outcome c).map ((r.begun image).judged (r.governed c) r.imageSignatures as)

/-- The questions of a run, each with what has to hold for the run to go on after it. -/
def steps : List (Call × Prop) :=
  (.probe image, r.probe = .ok ()) ::
  (.digest image, ∃ digest, r.digest = .ok digest ∧ IsDigest digest r.hex) ::
  (.imageSignatures (r.resolved image) c.publicKey c.rekorUrl,
    r.imageSignatures ≠ .error .cancelled) ::
  (.attestations (r.resolved image) c.publicKey c.rekorUrl,
    ∃ as, r.attestations = .ok as ∧ ∃ a ∈ as, a.fault? = none ∧ r.hex ∈ a.subjectDigests) ::
  (.writeInput r.counted.length, ∃ input, r.staging = .ok input) ::
  r.evaluations.map evaluationStep

/-- The attestations let a run go on just if one of them counts. -/
theorem attestations_hold_iff : (∃ as, r.attestations = .ok as ∧
      ∃ a ∈ as, a.fault? = none ∧ r.hex ∈ a.subjectDigests) ↔ r.counted ≠ [] := by
  rw [counted, counting_ne_nil_iff]
  cases r.attestations <;> simp [Except.toOption]

end Replies

/-- The calls of steps, up to the first step after which it does not go on. -/
inductive Through : List (Call × Prop) → List Call → Prop
  | done : Through [] []
  | goOn {call : Call} {holds : Prop} {steps : List (Call × Prop)} {calls : List Call} :
      holds → Through steps calls → Through ((call, holds) :: steps) (call :: calls)
  | stop {call : Call} {holds : Prop} {steps : List (Call × Prop)} :
      ¬holds → Through ((call, holds) :: steps) [call]

/-! ### What is heard when all are asked -/

namespace Pipeline

/-- The evaluators asked in turn, from an index on. -/
def askEvaluators (input : Path) (c : PolicyContext) :
    Nat → List Evaluator → Session → List (Call × Reply (List CheckGroup))
  | _, [], _ => []
  | index, e :: es, s =>
    (.evaluate index input (s.disk.content? input) c.effectiveTime,
      (s.evaluate index e input c).1) ::
    askEvaluators input c (index + 1) es (s.evaluate index e input c).2

variable (p : Pipeline) (image : ImageReference) (c : PolicyContext) (s : Session)

/-- The question whether an image is within reach. -/
def askProbe : Reply Unit × Session :=
  s.ask (.probe image) (p.verifier.probe image)

/-- The question for the digest of an image. -/
def askDigest : Reply String × Session :=
  s.ask (.digest image) (p.verifier.digest image)

/-- The question for the signatures of an image. -/
def askSignatures : Reply (List Signature) × Session :=
  s.ask (.imageSignatures image c.publicKey c.rekorUrl) (p.verifier.imageSignatures image c)

/-- The question for the attestations of an image. -/
def askAttestations : Reply (List Attestation) × Session :=
  s.ask (.attestations image c.publicKey c.rekorUrl) (p.verifier.attestations image c)

/-- The evaluations of attestations, if they can be staged. -/
def evaluations (as : List Attestation) : List (Call × Reply (List CheckGroup)) :=
  match p.writer as s.disk with
  | .error _ => []
  | .ok (staged, disk) =>
    askEvaluators staged.path c 0 p.evaluators { s.note (.writeInput as.length) with disk }

/-- What is heard about an image when all collaborators are asked in turn. -/
def replies : Replies :=
  let probe := p.askProbe image s
  let digest := p.askDigest image probe.2
  let resolved := image.pinned (digest.1.toOption.getD "")
  let imageSignatures := p.askSignatures resolved c digest.2
  let attestations := p.askAttestations resolved c imageSignatures.2
  let counted := counting (resolved.digestHex.getD "") (attestations.1.toOption.getD [])
  { probe := probe.1
    digest := digest.1
    imageSignatures := imageSignatures.1
    attestations := attestations.1
    staging := p.writer counted attestations.2.disk
    evaluations := p.evaluations (c.attested counted) attestations.2 counted }

/-- The session in which the verifier has been asked all its questions. -/
def verified : Session :=
  let digest := p.askDigest image (p.askProbe image s).2
  let resolved := image.pinned (digest.1.toOption.getD "")
  (p.askAttestations resolved c (p.askSignatures resolved c digest.2).2).2

end Pipeline

/-! ### A part of a run -/

/-- A part of a run that starts at a session ends in a verdict after asking some questions. -/
structure Goes (s : Session) (steps : List (Call × Prop)) (verdict : Verdict)
    (out : Verdict × Session) : Prop where
  verdict_eq : out.1 = verdict
  calls_eq : ∃ calls, Through steps calls ∧ out.2.calls = s.calls ++ calls

namespace Goes

variable {s next : Session} {call : Call} {holds : Prop} {steps : List (Call × Prop)}
  {verdict : Verdict} {out : Verdict × Session}

theorem stop (hcall : out.2.calls = s.calls ++ [call]) (h : ¬holds) (hv : out.1 = verdict) :
    Goes s ((call, holds) :: steps) verdict out :=
  ⟨hv, [call], .stop h, hcall⟩

theorem goOn (hcall : next.calls = s.calls ++ [call]) (h : holds)
    (hrest : Goes next steps verdict out) : Goes s ((call, holds) :: steps) verdict out := by
  obtain ⟨hv, calls, hthrough, hcalls⟩ := hrest
  refine ⟨hv, call :: calls, .goOn h hthrough, ?_⟩
  rw [hcalls, hcall, List.append_assoc]
  rfl

end Goes

namespace Pipeline

variable {p : Pipeline} {image : ImageReference} {c : PolicyContext} {s : Session}
  {report : Report} {steps : List (Call × Prop)} {verdict : Verdict}

theorem evaluateAll_results (input : Path) : ∀ (index : Nat) (es : List Evaluator) (s : Session),
    (evaluateAll input c index es s).1 = gather ((askEvaluators input c index es s).map Prod.snd)
  | _, [], _ => rfl
  | index, e :: es, s => by
    have ih := evaluateAll_results input (index + 1) es (s.evaluate index e input c).2
    unfold evaluateAll askEvaluators
    rcases hr : s.evaluate index e input c with ⟨err | groups, next⟩
    · rfl
    · rw [hr] at ih
      simp only [List.map_cons, gather, ← ih]
      rcases evaluateAll input c (index + 1) es next with ⟨err | more, last⟩ <;> rfl

theorem evaluateAll_calls (input : Path) : ∀ (index : Nat) (es : List Evaluator) (s : Session),
    ∃ calls, Through ((askEvaluators input c index es s).map evaluationStep) calls ∧
      (evaluateAll input c index es s).2.calls = s.calls ++ calls
  | _, [], s => ⟨[], .done, (List.append_nil s.calls).symm⟩
  | index, e :: es, s => by
    have hcall : (s.evaluate index e input c).2.calls =
        s.calls ++ [.evaluate index input (s.disk.content? input) c.effectiveTime] := rfl
    have ih := evaluateAll_calls input (index + 1) es (s.evaluate index e input c).2
    unfold evaluateAll askEvaluators
    rcases hr : s.evaluate index e input c with ⟨err | groups, next⟩
    · rw [hr] at hcall
      exact ⟨_, .stop (by simp), hcall⟩
    · rw [hr] at hcall ih
      obtain ⟨calls, hthrough, hcalls⟩ := ih
      refine ⟨_, .goOn ⟨groups, rfl⟩ hthrough, ?_⟩
      simp only at hcalls ⊢
      rcases hrest : evaluateAll input c (index + 1) es next with ⟨err | more, last⟩ <;>
        · rw [hrest] at hcalls
          simp only at hcalls ⊢
          rw [hcalls, hcall, List.append_assoc]
          rfl

/-- The policy part of a run asks for the input to be staged, and then the evaluators. -/
theorem evaluatePolicy_goes (as : List Attestation) : Goes s
    ((.writeInput as.length, ∃ input, p.writer as s.disk = .ok input) ::
      (p.evaluations c s as).map evaluationStep)
    (match p.writer as s.disk with
      | .error err => .error err
      | .ok _ => classified report c (gather ((p.evaluations c s as).map Prod.snd)))
    (p.evaluatePolicy report c as s) := by
  have hdisk : (s.note (.writeInput as.length)).disk = s.disk := rfl
  unfold evaluatePolicy evaluations
  simp only [hdisk]
  rcases p.writer as s.disk with err | ⟨staged, disk⟩
  · exact Goes.stop rfl (by simp) rfl
  · have hcall : ({ s.note (.writeInput as.length) with disk } : Session).calls =
        s.calls ++ [.writeInput as.length] := rfl
    refine Goes.goOn hcall ⟨_, rfl⟩ ⟨?_, ?_⟩
    · simp only [evaluateAll_results]
    · exact evaluateAll_calls staged.path 0 p.evaluators _

/-- Judging attestations adds to a report what is known of them, and the checks of the policy. -/
theorem judge_verdict (signatures : Reply (List Signature)) (as : List Attestation)
    {counted : List Attestation} (hc : counting (image.digestHex.getD "") as = counted) :
    (p.judge report image c signatures as s).1 =
      (policyOutcome (c.attested counted) counted (p.writer counted s.disk)
        (p.evaluations (c.attested counted) s counted)).map
          (report.judged (c.attested counted) signatures as) := by
  unfold judge policyOutcome
  simp only [matching_valid, hc]
  by_cases hnone : counted.isEmpty
  · rw [if_pos hnone, if_pos hnone]
    rfl
  · rw [if_neg hnone, if_neg hnone, (evaluatePolicy_goes counted).verdict_eq]
    rcases p.writer counted s.disk with err | input
    · rfl
    · rcases gather _ with err | groups
      · rfl
      · simp only [classified]
        cases (Classifier.ofContext (c.attested counted)).classify? groups <;> rfl

/-- Judging asks nobody if no attestation counts; otherwise it goes on to the policy. -/
theorem judge_calls (signatures : Reply (List Signature)) (as : List Attestation)
    {counted : List Attestation} (hc : counting (image.digestHex.getD "") as = counted) :
    (counted = [] → (p.judge report image c signatures as s).2 = s) ∧
      (counted ≠ [] → ∃ calls,
        Through ((.writeInput counted.length, ∃ input, p.writer counted s.disk = .ok input) ::
          (p.evaluations (c.attested counted) s counted).map evaluationStep) calls ∧
        (p.judge report image c signatures as s).2.calls = s.calls ++ calls) := by
  unfold judge
  simp only [matching_valid, hc]
  constructor
  · intro hnone
    rw [if_pos (List.isEmpty_iff.mpr hnone)]
  · intro hsome
    rw [if_neg (fun h => hsome (List.isEmpty_iff.mp h))]
    exact (evaluatePolicy_goes counted).calls_eq

theorem verifyAttestations_goes (signatures : Reply (List Signature))
    {heard : Reply (List Attestation) × Session} (hh : p.askAttestations image c s = heard)
    {counted : List Attestation}
    (hc : counting (image.digestHex.getD "") (heard.1.toOption.getD []) = counted) :
    Goes s
      ((.attestations image c.publicKey c.rekorUrl, ∃ as, heard.1 = .ok as ∧
          ∃ a ∈ as, a.fault? = none ∧ image.digestHex.getD "" ∈ a.subjectDigests) ::
        (.writeInput counted.length, ∃ input, p.writer counted heard.2.disk = .ok input) ::
        (p.evaluations (c.attested counted) heard.2 counted).map evaluationStep)
      (attestationGate report heard.1 fun as =>
        (policyOutcome (c.attested counted) counted (p.writer counted heard.2.disk)
          (p.evaluations (c.attested counted) heard.2 counted)).map
            (report.judged (c.attested counted) signatures as))
      (p.verifyAttestations report image c signatures s) := by
  have hcall : heard.2.calls = s.calls ++ [.attestations image c.publicKey c.rekorUrl] :=
    hh ▸ rfl
  unfold verifyAttestations
  rw [← askAttestations, hh]
  rcases heard with ⟨err | as, next⟩
  · cases err <;> exact Goes.stop hcall (by simp) rfl
  · have hany : counted ≠ [] ↔
        ∃ a ∈ as, a.fault? = none ∧ image.digestHex.getD "" ∈ a.subjectDigests := by
      rw [← hc]
      exact counting_ne_nil_iff
    obtain ⟨hnone, hsome⟩ := @judge_calls p image c next report signatures as _ hc
    by_cases hcount : counted = []
    · refine Goes.stop ?_ ?_ (judge_verdict signatures as hc)
      · rw [← hcall]
        exact congrArg Session.calls (hnone hcount)
      · rintro ⟨_, heq, h⟩
        cases heq
        exact hany.mpr h hcount
    · exact Goes.goOn hcall ⟨as, rfl, hany.mp hcount⟩
        ⟨judge_verdict signatures as hc, hsome hcount⟩

theorem verifySignatures_goes {heard : Reply (List Signature) × Session}
    (hh : p.askSignatures image c s = heard)
    (hrest : Goes heard.2 steps verdict (p.verifyAttestations
      { report with imageSignature := some (signatureStatus heard.1) } image c heard.1 heard.2)) :
    Goes s
      ((.imageSignatures image c.publicKey c.rekorUrl, heard.1 ≠ .error .cancelled) :: steps)
      (signatureGate heard.1 verdict) (p.verifySignatures report image c s) := by
  have hcall : heard.2.calls = s.calls ++ [.imageSignatures image c.publicKey c.rekorUrl] :=
    hh ▸ rfl
  unfold verifySignatures
  rw [← askSignatures, hh]
  rcases heard with ⟨err | signatures, next⟩
  · cases err with
    | cancelled => exact Goes.stop hcall (by simp) rfl
    | failed text => exact Goes.goOn hcall (by simp) hrest
    | io text => exact Goes.goOn hcall (by simp) hrest
  · exact Goes.goOn hcall (by simp) hrest

theorem resolveDigest_goes {heard : Reply String × Session} (hh : p.askDigest image s = heard)
    {resolved : ImageReference} (hr : image.pinned (heard.1.toOption.getD "") = resolved)
    (hrest : Goes heard.2 steps verdict
      (p.verifySignatures { report with imageUrl := resolved.render } resolved c heard.2)) :
    Goes s
      ((.digest image, ∃ digest, heard.1 = .ok digest ∧
        IsDigest digest (resolved.digestHex.getD "")) :: steps)
      (digestGate image heard.1 verdict) (p.resolveDigest report image c s) := by
  have hcall : heard.2.calls = s.calls ++ [.digest image] := hh ▸ rfl
  unfold resolveDigest
  rw [← askDigest, hh]
  rcases heard with ⟨err | digest, next⟩
  · exact Goes.stop hcall (by simp) rfl
  · simp only [digestGate]
    cases hres : image.resolve digest with
    | error fault =>
      refine Goes.stop hcall ?_ rfl
      rintro ⟨_, heq, hd⟩
      cases heq
      rw [ImageReference.resolve_eq_ok_iff.mpr ⟨⟨_, hd⟩, rfl⟩] at hres
      cases hres
    | ok found =>
      obtain ⟨⟨hex, hd⟩, rfl⟩ := ImageReference.resolve_eq_ok_iff.mp hres
      obtain rfl : image.pinned digest = resolved := hr
      refine Goes.goOn hcall ⟨digest, rfl, ?_⟩ hrest
      rw [ImageReference.digestHex_pinned hd]
      exact hd

theorem probe_goes {url : String} {heard : Reply Unit × Session} (hh : p.askProbe image s = heard)
    (hrest : Goes heard.2 steps verdict (p.resolveDigest
      { imageUrl := url, imageAccessible := some (.pass "Image URL is accessible") } image c
      heard.2)) :
    Goes s ((.probe image, heard.1 = .ok ()) :: steps) (probeGate url heard.1 verdict)
      (p.probe url image c s) := by
  have hcall : heard.2.calls = s.calls ++ [.probe image] := hh ▸ rfl
  unfold probe
  rw [← askProbe, hh]
  rcases heard with ⟨err | ⟨⟩, next⟩
  · cases err <;> exact Goes.stop hcall (by simp) rfl
  · exact Goes.goOn hcall rfl hrest

/-- **A run goes by the replies.** Its verdict is theirs, and it asks their questions up to the
first whose reply ends it. -/
theorem run_goes {url : String} (h : ImageReference.parse url = .ok image) :
    Goes s ((p.replies image c s).steps image c) ((p.replies image c s).verdict image c url)
      (p.run url c s) := by
  unfold run
  rw [h]
  exact probe_goes rfl <| resolveDigest_goes rfl rfl <| verifySignatures_goes rfl <|
    verifyAttestations_goes _ rfl rfl

/-- A text that is no reference ends a run before it asks anybody. -/
theorem run_of_malformed {url : String} {fault : ReferenceFault}
    (h : ImageReference.parse url = .error fault) :
    p.run url c s = (.error (.reference url fault), s) := by
  unfold run
  rw [h]

end Pipeline
end ImagePolicy
