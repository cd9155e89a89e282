/-
# Errors and cancellation

Why a run ends without a report, and what becomes of a reply that is an error. A cancellation ends
a run with the stage of the call that was cancelled, whatever the stage is. Otherwise it depends on
the stage: where the image, its signatures or its attestations are verified an error is an outcome
and goes into the report, as the failure of that stage; where a digest or rule results are needed
it is the error of the run. The causes that are listed (`Replies.Cause`) are all there are.

Key definitions: `Replies.Cause`, `Report.status`, `Replies.Accounted`.
Key theorems: `Replies.refusal_eq_error_iff`, `Replies.Run.error_iff`, `Replies.Run.recorded_iff`,
`Pipeline.validate_accounted`.
-/
import ImagePolicy.Proofs.Pipeline.Endings
import ImagePolicy.Proofs.Pipeline.Influence

namespace ImagePolicy

/-- The status that a report has of a stage; only the stages that verify something have one. -/
def Report.status (report : Report) : Stage → Option StageStatus
  | .imageAccess => report.imageAccessible
  | .imageSignatures => report.imageSignature
  | .attestationSignatures => report.attestationSignature
  | .digestResolution => none
  | .ruleEvaluation => none

namespace Replies

variable (r : Replies) (image : ImageReference) (c : PolicyContext) (evaluators : Nat)
  (calls : List Call)

/-- Why a run with these calls ends in an error. -/
inductive Cause : VerificationError → Prop
  /-- A call was cancelled, at whatever stage. -/
  | cancelled {stage : Stage} {call : Call} : call ∈ calls →
      r.Refuses image c stage call .cancelled → Cause (.cancelled stage)
  /-- There is no digest, or there are no results. -/
  | broken {stage : Stage} {call : Call} {err : CollaboratorError} : call ∈ calls →
      r.Refuses image c stage call err → err ≠ .cancelled →
      stage = .digestResolution ∨ stage = .ruleEvaluation → Cause (.collaborator stage err)
  /-- What was replied for the digest is none. -/
  | malformed {digest : String} {fault : ReferenceFault} : .digest image ∈ calls →
      r.digest = .ok digest → digestFault? digest.toList = some fault →
      Cause (.reference (image.withDigest digest) fault)
  /-- The input could not be staged. -/
  | unstaged {err : VerificationError} : .writeInput r.counted.length ∈ calls →
      r.staging = .error err → Cause err
  /-- Every evaluator was heard, and there is nothing to go by. -/
  | silent : r.Heard evaluators calls → (¬∃ g ∈ r.groups, Classifier.Tells c g) → Cause .noResults

/-- Errors, cancellation and failed stages of a run are accounted for. -/
structure Accounted (verdict : Verdict) : Prop where
  /-- A run ends in an error just if there is a cause for it. -/
  error_iff : ∀ err, verdict = .error err ↔ r.Cause image c evaluators calls err
  /-- An image out of reach, and attestations that do not verify, are reported. -/
  reported : ∀ stage call err, call ∈ calls → r.Refuses image c stage call err →
    err ≠ .cancelled → stage = .imageAccess ∨ stage = .attestationSignatures →
    ∃ report, verdict = .ok report
  /-- A report tells of a failed stage just if that stage was asked for and its reply was an error,
  and then it tells the wording of that reply. -/
  recorded_iff : ∀ report, verdict = .ok report → ∀ stage message,
    report.status stage = some (.fail message) ↔
      ∃ call ∈ calls, ∃ err, r.Refuses image c stage call err ∧
        message = stage.complaint ++ err.told
  /-- With a writer whose errors are its own, nothing else cancels a run or leaves it without
  results. -/
  own : (∀ err, r.staging = .error err → ∃ text, err = .io text) →
    (∀ stage, verdict = .error (.cancelled stage) ↔
      ∃ call ∈ calls, r.Refuses image c stage call .cancelled) ∧
    (verdict = .error .noResults ↔
      r.Heard evaluators calls ∧ ¬∃ g ∈ r.groups, Classifier.Tells c g)

variable {r image c evaluators calls} {url : String}

/-- A call whose reply ends a run in an error is a cause of it. -/
theorem cause_of_endsAt {call : Call} {err : VerificationError} (hcall : call ∈ calls)
    (h : r.EndsAt image c url call (.error err)) : r.Cause image c evaluators calls err := by
  cases h with
  | refused hr hv =>
    rcases refusal_eq_error_iff.mp hv with ⟨rfl, rfl⟩ | ⟨hne, hstage, rfl⟩
    · exact .cancelled hcall hr
    · exact .broken hcall hr hne hstage
  | malformed hd hf => exact .malformed hcall hd hf
  | unstaged hs => exact .unstaged hcall hs

/-- The classification ends a run in an error if there is nothing to go by. -/
theorem classification_eq_error_iff {err : VerificationError} :
    r.classification image c = .error err ↔
      err = .noResults ∧ ¬∃ g ∈ r.groups, Classifier.Tells c g := by
  have hnone : (Classifier.ofContext (r.governed c)).classify? r.groups = none ↔
      ¬∃ g ∈ r.groups, Classifier.Tells c g := by
    simp only [Classifier.classify?_eq_none_iff, governed, tells_attested_iff]
  rw [← hnone]
  unfold classification
  cases (Classifier.ofContext (r.governed c)).classify? r.groups <;> simp [eq_comm]

/-! ### What becomes of a refusal -/

theorem fail_inj {m n : String} : StageStatus.fail m = .fail n ↔ m = n := by
  simp [StageStatus.fail]

theorem pass_ne_fail {m n : String} : StageStatus.pass m ≠ .fail n := by
  simp [StageStatus.pass, StageStatus.fail]

theorem signatureStatus_error (err : CollaboratorError) :
    signatureStatus (.error err) = .fail (Stage.imageSignatures.complaint ++ err.told) := rfl

theorem signatureStatus_eq_fail_iff {reply : Reply (List Signature)} {message : String} :
    signatureStatus reply = .fail message ↔
      ∃ err, reply = .error err ∧ message = Stage.imageSignatures.complaint ++ err.told := by
  cases reply with
  | error err => simp [signatureStatus_error, fail_inj, eq_comm]
  | ok signatures => simp [signatureStatus, pass_ne_fail]

/-- Only at the image's signatures a run gets over an error. -/
theorem refusal_eq_none {stage : Stage} {err : CollaboratorError}
    (h : r.refusal image url stage err = none) : stage = .imageSignatures := by
  cases stage <;> cases err <;> simp [refusal] at h ⊢

/-- A refusal that makes a report tells there of its stage. -/
theorem status_of_refusal {stage : Stage} {err : CollaboratorError} {report : Report}
    (h : r.refusal image url stage err = some (.ok report)) :
    report.status stage = some (.fail (stage.complaint ++ err.told)) := by
  rcases refusal_eq_ok h with rfl | rfl <;> cases err <;> cases h <;> rfl

/-- An image out of reach, and attestations that do not verify, make a report. -/
theorem exists_report_of_refusal {stage : Stage} {err : CollaboratorError} (hne : err ≠ .cancelled)
    (hstage : stage = .imageAccess ∨ stage = .attestationSignatures) :
    ∃ report, r.refusal image url stage err = some (.ok report) := by
  rcases hstage with rfl | rfl <;> cases err <;> simp [refusal] at hne ⊢

theorem report_imageSignature {as : List Attestation} {checks : List CheckGroup} :
    (r.report image c as checks).imageSignature = some (signatureStatus r.imageSignatures) := rfl

namespace Run

variable {verdict : Verdict} (h : r.Run image c url calls verdict)
include h

/-- **An error has a cause among the calls of the run**, and what is a cause makes it that error. -/
theorem error_iff {err : VerificationError}
    (hcomplete : r.Complete calls ↔ r.Heard evaluators calls) :
    verdict = .error err ↔ r.Cause image c evaluators calls err := by
  constructor
  · intro herr
    rcases h.verdict_eq_iff.mp herr with ⟨call, hcall, hends⟩ | ⟨hc, hclassified⟩
    · exact cause_of_endsAt hcall hends
    · obtain ⟨rfl, hsilent⟩ := classification_eq_error_iff.mp hclassified
      exact .silent (hcomplete.mp hc) hsilent
  · intro hcause
    cases hcause with
    | cancelled hcall hr =>
      exact h.verdict_of_endsAt hcall (.refused hr (refusal_eq_error_iff.mpr (.inl ⟨rfl, rfl⟩)))
    | broken hcall hr hne hstage =>
      exact h.verdict_of_endsAt hcall
        (.refused hr (refusal_eq_error_iff.mpr (.inr ⟨hne, hstage, rfl⟩)))
    | malformed hcall hd hf => exact h.verdict_of_endsAt hcall (.malformed hd hf)
    | unstaged hcall hs => exact h.verdict_of_endsAt hcall (.unstaged hs)
    | silent hheard hsilent =>
      exact h.verdict_eq_iff.mpr
        (.inr ⟨hcomplete.mpr hheard, classification_eq_error_iff.mpr ⟨rfl, hsilent⟩⟩)

/-- A call that is refused has its stage reported as failed, if there is a report. -/
theorem status_of_refuses {report : Report} (hok : verdict = .ok report) {stage : Stage}
    {call : Call} {err : CollaboratorError} (hcall : call ∈ calls)
    (hr : r.Refuses image c stage call err) :
    report.status stage = some (.fail (stage.complaint ++ err.told)) := by
  cases hv : r.refusal image url stage err with
  | some v =>
    -- the refusal ends the run, so it makes the report
    have hreport : v = .ok report := (h.verdict_of_endsAt hcall (.refused hr hv)).symm.trans hok
    exact status_of_refusal (hreport ▸ hv)
  | none =>
    obtain rfl := refusal_eq_none hv
    cases hr with
    | signatures hr =>
      cases h.reported hok with
      | unreachable _ hprobe => simp [h.before_signatures hcall] at hprobe
      | unattested => simp [Report.status, begun, hr, signatureStatus_error]
      | unmatched => simp [Report.status, report_imageSignature, hr, signatureStatus_error]
      | evaluated => simp [Report.status, report_imageSignature, hr, signatureStatus_error]

/-- The signature status that a report has from the image's signatures, when it tells of an error,
tells of what they were replied to. -/
theorem refuses_of_signatureStatus {message : String}
    (hcall : .attestations (r.resolved image) c.publicKey c.rekorUrl ∈ calls)
    (hstatus : signatureStatus r.imageSignatures = .fail message) :
    ∃ call ∈ calls, ∃ err, r.Refuses image c .imageSignatures call err ∧
      message = Stage.imageSignatures.complaint ++ err.told := by
  obtain ⟨err, hr, rfl⟩ := signatureStatus_eq_fail_iff.mp hstatus
  obtain ⟨-, -, -, hasked⟩ := h.before_attestations hcall
  exact ⟨_, hasked, err, .signatures hr, rfl⟩

/-- A stage that is reported as failed has a call that was refused. -/
theorem refuses_of_status {report : Report} (hok : verdict = .ok report) {stage : Stage}
    {message : String} (hstatus : report.status stage = some (.fail message)) :
    ∃ call ∈ calls, ∃ err, r.Refuses image c stage call err ∧
      message = stage.complaint ++ err.told := by
  -- on verified attestations only the image's signatures can have failed
  have hverified : ∀ {as : List Attestation} {checks : List CheckGroup},
      .attestations (r.resolved image) c.publicKey c.rekorUrl ∈ calls →
      (r.report image c as checks).status stage = some (.fail message) →
      ∃ call ∈ calls, ∃ err, r.Refuses image c stage call err ∧
        message = stage.complaint ++ err.told := by
    intro as checks hcall hstatus
    cases stage with
    | imageAccess => exact absurd (Option.some.inj hstatus) pass_ne_fail
    | imageSignatures => exact h.refuses_of_signatureStatus hcall (Option.some.inj hstatus)
    | attestationSignatures => exact absurd (Option.some.inj hstatus) pass_ne_fail
    | digestResolution => cases hstatus
    | ruleEvaluation => cases hstatus
  cases h.reported hok with
  | @unreachable err hcall hr =>
    cases stage with
    | imageAccess => exact ⟨_, hcall, err, .access hr, (fail_inj.mp (Option.some.inj hstatus)).symm⟩
    | imageSignatures | attestationSignatures | digestResolution | ruleEvaluation => cases hstatus
  | @unattested err hcall hr =>
    cases stage with
    | imageAccess => exact absurd (Option.some.inj hstatus) pass_ne_fail
    | imageSignatures => exact h.refuses_of_signatureStatus hcall (Option.some.inj hstatus)
    | attestationSignatures =>
      exact ⟨_, hcall, err, .attestations hr, (fail_inj.mp (Option.some.inj hstatus)).symm⟩
    | digestResolution | ruleEvaluation => cases hstatus
  | unmatched hcall => exact hverified hcall hstatus
  | evaluated hcomplete => exact hverified (h.before_staging hcomplete.asked).1 hstatus

/-- **What a report tells of a failed stage** is what the call of that stage was replied to. -/
theorem recorded_iff {report : Report} (hok : verdict = .ok report) {stage : Stage}
    {message : String} : report.status stage = some (.fail message) ↔
      ∃ call ∈ calls, ∃ err, r.Refuses image c stage call err ∧
        message = stage.complaint ++ err.told := by
  constructor
  · exact h.refuses_of_status hok
  · rintro ⟨call, hcall, err, hr, rfl⟩
    exact h.status_of_refuses hok hcall hr

/-- An image out of reach, and attestations that do not verify, end a run in a report. -/
theorem exists_report {stage : Stage} {call : Call} {err : CollaboratorError} (hcall : call ∈ calls)
    (hr : r.Refuses image c stage call err) (hne : err ≠ .cancelled)
    (hstage : stage = .imageAccess ∨ stage = .attestationSignatures) :
    ∃ report, verdict = .ok report := by
  obtain ⟨report, hreport⟩ : ∃ report, r.refusal image url stage err = some (.ok report) :=
    exists_report_of_refusal hne hstage
  exact ⟨report, h.verdict_of_endsAt hcall (.refused hr hreport)⟩

end Run

/-- A run is cancelled by a reply only, if the writer has errors of its own. -/
theorem cause_cancelled_iff (hown : ∀ err, r.staging = .error err → ∃ text, err = .io text)
    {stage : Stage} : r.Cause image c evaluators calls (.cancelled stage) ↔
      ∃ call ∈ calls, r.Refuses image c stage call .cancelled := by
  constructor
  · intro hcause
    cases hcause with
    | cancelled hcall hr => exact ⟨_, hcall, hr⟩
    | unstaged _ hs => exact nomatch hown _ hs
  · rintro ⟨call, hcall, hr⟩
    exact .cancelled hcall hr

/-- A run is without results only if its evaluators have none, if the writer has errors of its
own. -/
theorem cause_noResults_iff (hown : ∀ err, r.staging = .error err → ∃ text, err = .io text) :
    r.Cause image c evaluators calls .noResults ↔
      r.Heard evaluators calls ∧ ¬∃ g ∈ r.groups, Classifier.Tells c g := by
  constructor
  · intro hcause
    cases hcause with
    | unstaged _ hs => exact nomatch hown _ hs
    | silent hheard hsilent => exact ⟨hheard, hsilent⟩
  · rintro ⟨hheard, hsilent⟩
    exact .silent hheard hsilent

/-- A run is accounted for, if it is complete just when every evaluator was heard. -/
theorem Run.accounted {verdict : Verdict} (h : r.Run image c url calls verdict)
    (hcomplete : r.Complete calls ↔ r.Heard evaluators calls) :
    r.Accounted image c evaluators calls verdict where
  error_iff _ := h.error_iff hcomplete
  reported _ _ _ hcall hr := h.exists_report hcall hr
  recorded_iff _ hok _ _ := h.recorded_iff hok
  own hown :=
    ⟨fun _ => (h.error_iff hcomplete).trans (cause_cancelled_iff hown),
      (h.error_iff hcomplete).trans (cause_noResults_iff hown)⟩

end Replies

namespace Pipeline

/-- **Errors and cancellation over whole runs.** A text that is no reference is the error of its
run. Otherwise the errors, the cancellations and the failed stages of the run are accounted for by
the calls it made and by what they were replied to. -/
theorem validate_accounted (p : Pipeline) (url : String) (c : PolicyContext) (s : Session) :
    (∀ fault, ImageReference.parse url = .error fault →
      (p.validate url c s).1 = .error (.reference url fault)) ∧
    ∀ image, ImageReference.parse url = .ok image → ∃ calls,
      (p.validate url c s).2.calls = s.calls ++ calls ++ releases p.evaluators.length ∧
        (p.replies image c s).Accounted image c p.evaluators.length calls
          (p.validate url c s).1 := by
  constructor
  · intro fault h
    rw [validate_of_malformed h]
  · intro image h
    obtain ⟨calls, hcalls, hrun⟩ := validate_run (p := p) (c := c) (s := s) h
    exact ⟨calls, hcalls, hrun.accounted (complete_iff_heard hrun)⟩

/-- A run that is cancelled at the image's signatures made the call that was cancelled. -/
theorem validate_accounted_cancelled :
    let p := replying ("sha256:" ++ String.ofList (List.replicate 64 'a')) (.error .cancelled)
      (.ok []) []
    let c : PolicyContext := ⟨"key", none, [], [], [], [], [], .now ⟨0, 0⟩⟩
    let s := Session.initial ⟨[], 0, []⟩
    let image : ImageReference := ⟨"localhost", "app", some "1", none⟩
    ∃ calls, (p.validate "localhost/app:1" c s).2.calls = s.calls ++ calls ++ releases 1 ∧
      (p.replies image c s).Accounted image c 1 calls (p.validate "localhost/app:1" c s).1 ∧
      ∃ call ∈ calls, (p.replies image c s).Refuses image c .imageSignatures call .cancelled := by
  intro p c s image
  have hparse : ImageReference.parse "localhost/app:1" = .ok image := by rfl
  have hverdict : (p.validate "localhost/app:1" c s).1 = .error (.cancelled .imageSignatures) := by
    rfl
  obtain ⟨calls, hcalls, haccounted⟩ := (validate_accounted p "localhost/app:1" c s).2 image hparse
  have hown : ∀ err, (p.replies image c s).staging = .error err → ∃ text, err = .io text := nofun
  exact ⟨calls, hcalls, haccounted, ((haccounted.own hown).1 _).mp hverdict⟩

end Pipeline
end ImagePolicy
