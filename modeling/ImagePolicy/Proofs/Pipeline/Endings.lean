/-
# Where a run ends

A run ends at a question whose reply ends it (`Replies.EndsAt`), or with the classification, behind
all questions. A reply ends a run if it is an error that the run does not get over, a text that is
no digest, attestations of which none counts, or an input that could not be staged. So the verdict
of a run is known as soon as one such call is found among its calls, and a verdict comes about in no
other way (`Replies.Run.verdict_of_endsAt`, `Replies.Run.verdict_eq_iff`).

Key definitions: `Replies.Refuses`, `Replies.EndsAt`, `Replies.Run`, `Replies.Complete`,
`Replies.Heard`, `Replies.Reported`.
Key theorems: `Replies.Run.verdict_of_endsAt`, `Replies.Run.verdict_eq_iff`,
`Replies.Run.before_attestations`, `Replies.Run.reported`, `Pipeline.validate_run`,
`Pipeline.complete_iff_heard`.
-/
import ImagePolicy.Proofs.Pipeline.Gates

namespace ImagePolicy
namespace Replies

variable (r : Replies) (image : ImageReference) (c : PolicyContext) (url : String)

/-- The collaborator that a call asks at a stage replies with an error. -/
inductive Refuses : Stage → Call → CollaboratorError → Prop
  | access {err : CollaboratorError} : r.probe = .error err →
      Refuses .imageAccess (.probe image) err
  | digest {err : CollaboratorError} : r.digest = .error err →
      Refuses .digestResolution (.digest image) err
  | signatures {err : CollaboratorError} : r.imageSignatures = .error err →
      Refuses .imageSignatures (.imageSignatures (r.resolved image) c.publicKey c.rekorUrl) err
  | attestations {err : CollaboratorError} : r.attestations = .error err →
      Refuses .attestationSignatures (.attestations (r.resolved image) c.publicKey c.rekorUrl) err
  | evaluation {call : Call} {err : CollaboratorError} : (call, .error err) ∈ r.evaluations →
      Refuses .ruleEvaluation call err

/-- The reply to a call ends a run in a verdict. -/
inductive EndsAt : Call → Verdict → Prop
  | refused {stage : Stage} {call : Call} {err : CollaboratorError} {v : Verdict} :
      r.Refuses image c stage call err → r.refusal image url stage err = some v → EndsAt call v
  | malformed {digest : String} {fault : ReferenceFault} : r.digest = .ok digest →
      digestFault? digest.toList = some fault →
      EndsAt (.digest image) (.error (.reference (image.withDigest digest) fault))
  | unmatched {as : List Attestation} : r.attestations = .ok as → r.counted = [] →
      EndsAt (.attestations (r.resolved image) c.publicKey c.rekorUrl)
        (.ok (r.report image c as noMatchCheck))
  | unstaged {err : VerificationError} : r.staging = .error err →
      EndsAt (.writeInput r.counted.length) (.error err)

variable {r image c url} {v : Verdict} {call : Call}

theorem ending_eq_some_iff {α : Type} {refused : CollaboratorError → Option Verdict}
    {heard : α → Option Verdict} {reply : Reply α} : ending refused heard reply = some v ↔
      (∃ err, reply = .error err ∧ refused err = some v) ∨
        ∃ a, reply = .ok a ∧ heard a = some v := by
  cases reply <;> simp [ending]

theorem mem_gates_of_refuses {stage : Stage} {err : CollaboratorError}
    (h : r.Refuses image c stage call err) (hv : r.refusal image url stage err = some v) :
    ∃ g ∈ r.gates image c url, g.call = call ∧ g.ending = some v := by
  cases h with
  | access hr =>
    refine ⟨r.accessGate image url, by simp [gates], rfl, ?_⟩
    rw [accessGate, hr]
    exact hv
  | digest hr =>
    refine ⟨r.digestGate image url, by simp [gates], rfl, ?_⟩
    rw [digestGate, hr]
    exact hv
  | signatures hr =>
    refine ⟨r.signaturesGate image c url, by simp [gates], rfl, ?_⟩
    rw [signaturesGate, hr]
    exact hv
  | attestations hr =>
    refine ⟨r.attestationsGate image c url, by simp [gates], rfl, ?_⟩
    rw [attestationsGate, hr]
    exact hv
  | evaluation hr =>
    refine ⟨r.evaluationGate image url (call, .error err), ?_, rfl, hv⟩
    simp only [gates, List.mem_cons, List.mem_map]
    exact .inr (.inr (.inr (.inr (.inr ⟨_, hr, rfl⟩))))

theorem mem_gates_of_endsAt (h : r.EndsAt image c url call v) :
    ∃ g ∈ r.gates image c url, g.call = call ∧ g.ending = some v := by
  cases h with
  | refused hr hv => exact mem_gates_of_refuses hr hv
  | malformed hd hf =>
    refine ⟨r.digestGate image url, by simp [gates], rfl, ?_⟩
    simp [digestGate, hd, ending, hf]
  | unmatched has hnone =>
    refine ⟨r.attestationsGate image c url, by simp [gates], rfl, ?_⟩
    simp [attestationsGate, has, ending, hnone]
  | unstaged hs =>
    refine ⟨r.stagingGate, by simp [gates], rfl, ?_⟩
    rw [stagingGate, hs]

theorem endsAt_of_mem_gates {g : Gate} (hg : g ∈ r.gates image c url) (hv : g.ending = some v) :
    r.EndsAt image c url g.call v := by
  simp only [gates, List.mem_cons, List.mem_map] at hg
  rcases hg with rfl | rfl | rfl | rfl | rfl | ⟨⟨call, reply⟩, he, rfl⟩
  · rcases ending_eq_some_iff.mp hv with ⟨err, hr, hv⟩ | ⟨_, _, hv⟩
    · exact .refused (.access hr) hv
    · cases hv
  · rcases ending_eq_some_iff.mp hv with ⟨err, hr, hv⟩ | ⟨digest, hd, hv⟩
    · exact .refused (.digest hr) hv
    · obtain ⟨fault, hf, rfl⟩ := Option.map_eq_some_iff.mp hv
      exact .malformed hd hf
  · rcases ending_eq_some_iff.mp hv with ⟨err, hr, hv⟩ | ⟨_, _, hv⟩
    · exact .refused (.signatures hr) hv
    · cases hv
  · rcases ending_eq_some_iff.mp hv with ⟨err, hr, hv⟩ | ⟨as, has, hv⟩
    · exact .refused (.attestations hr) hv
    · by_cases hnone : r.counted = []
      · rw [if_pos hnone, Option.some.injEq] at hv
        exact hv ▸ .unmatched has hnone
      · rw [if_neg hnone] at hv
        cases hv
  · unfold stagingGate at hv
    cases hs : r.staging with
    | error err =>
      rw [hs, Option.some.injEq] at hv
      exact hv ▸ .unstaged hs
    | ok input =>
      rw [hs] at hv
      cases hv
  · rcases ending_eq_some_iff.mp hv with ⟨err, rfl, hv⟩ | ⟨_, _, hv⟩
    · exact .refused (.evaluation he) hv
    · cases hv

/-! ### Runs -/

/-- What a run with these replies calls, and the verdict it ends in. -/
structure Run (r : Replies) (image : ImageReference) (c : PolicyContext) (url : String)
    (calls : List Call) (verdict : Verdict) : Prop where
  calls_eq : calls = (reached (r.gates image c url)).map Gate.call
  verdict_eq : verdict = decided (r.classification image c) (r.gates image c url)
  nodup : ((r.gates image c url).map Gate.call).Nodup

/-- The input was staged and all evaluators have results, so the run goes on to classify them. -/
structure Complete (r : Replies) (calls : List Call) : Prop where
  asked : .writeInput r.counted.length ∈ calls
  staged : ∃ input, r.staging = .ok input
  evaluated : ∀ e ∈ r.evaluations, ∃ groups, e.2 = .ok groups

/-- Every evaluator was asked, about an input that was staged, and has results. -/
structure Heard (r : Replies) (evaluators : Nat) (calls : List Call) : Prop where
  staged : ∃ input, r.staging = .ok input
  asked : calls.map Call.task = protocol evaluators
  evaluated : ∀ e ∈ r.evaluations, ∃ groups, e.2 = .ok groups

/-- The reports that a run with these calls can end in. -/
inductive Reported (r : Replies) (image : ImageReference) (c : PolicyContext) (url : String)
    (calls : List Call) : Report → Prop
  | unreachable {err : CollaboratorError} : .probe image ∈ calls → r.probe = .error err →
      Reported r image c url calls {
        imageUrl := url
        imageAccessible := some (.fail (Stage.imageAccess.complaint ++ err.told)) }
  | unattested {err : CollaboratorError} :
      .attestations (r.resolved image) c.publicKey c.rekorUrl ∈ calls →
      r.attestations = .error err →
      Reported r image c url calls { r.begun image with
        attestationSignature := some (.fail (Stage.attestationSignatures.complaint ++ err.told)) }
  | unmatched {as : List Attestation} :
      .attestations (r.resolved image) c.publicKey c.rekorUrl ∈ calls →
      r.attestations = .ok as → r.counted = [] →
      Reported r image c url calls (r.report image c as noMatchCheck)
  | evaluated {as : List Attestation} {checks : List CheckGroup} : r.Complete calls →
      r.attestations = .ok as →
      (Classifier.ofContext (r.governed c)).classify? r.groups = some checks →
      Reported r image c url calls (r.report image c as checks)

theorem refusal_eq_error_iff {stage : Stage} {err : CollaboratorError} {e : VerificationError} :
    r.refusal image url stage err = some (.error e) ↔
      err = .cancelled ∧ e = .cancelled stage ∨
        err ≠ .cancelled ∧ (stage = .digestResolution ∨ stage = .ruleEvaluation) ∧
          e = .collaborator stage err := by
  cases stage <;> cases err <;> simp [refusal, eq_comm]

theorem refusal_eq_ok {stage : Stage} {err : CollaboratorError} {report : Report}
    (h : r.refusal image url stage err = some (.ok report)) :
    stage = .imageAccess ∨ stage = .attestationSignatures := by
  cases stage <;> cases err <;> simp [refusal] at h ⊢

namespace Run

variable {calls : List Call} {verdict : Verdict} (h : r.Run image c url calls verdict)
include h

/-- **A call whose reply ends a run decides how it ends.** -/
theorem verdict_of_endsAt (hcall : call ∈ calls) (hv : r.EndsAt image c url call v) :
    verdict = v := by
  obtain ⟨g, hg, rfl, hends⟩ := mem_gates_of_endsAt hv
  rw [h.calls_eq] at hcall
  rw [h.verdict_eq]
  exact decided_of_mem_reached (mem_reached_of_call h.nodup hg hcall) hends

/-- A run only asks what its steps ask. -/
theorem mem_steps (hcall : call ∈ calls) :
    call ∈ (r.steps image c).map Prod.fst := by
  rw [h.calls_eq] at hcall
  obtain ⟨g, hg, rfl⟩ := List.mem_map.mp hcall
  rw [steps_eq_gates url, List.map_map]
  exact List.mem_map_of_mem (mem_of_mem_reached hg)

/-- The gates before one whose question is asked let the run go on, and were asked before. -/
theorem before (front : List Gate) (g : Gate) {back : List Gate}
    (hgates : r.gates image c url = front ++ g :: back) (hcall : g.call ∈ calls) :
    ∀ x ∈ front, x.ending = none ∧ x.call ∈ calls := by
  have hnodup := h.nodup
  have hcalls := h.calls_eq
  have hg : g ∈ reached (r.gates image c url) := by
    refine mem_reached_of_call hnodup ?_ (hcalls ▸ hcall)
    rw [hgates]
    simp
  rw [hgates] at hnodup hg hcalls
  have hopen := open_of_mem_reached hnodup hg
  intro x hx
  refine ⟨hopen x hx, ?_⟩
  rw [hcalls, reached_append_of_open hopen]
  exact List.mem_map_of_mem (List.mem_append_left _ hx)

/-- The signatures of an image are asked for if it is within reach. -/
theorem before_signatures
    (hcall : .imageSignatures (r.resolved image) c.publicKey c.rekorUrl ∈ calls) :
    r.probe = .ok () :=
  have hbefore := h.before [r.accessGate image url, r.digestGate image url]
    (r.signaturesGate image c url) rfl hcall
  accessGate_open_iff.mp (hbefore _ List.mem_cons_self).1

/-- Attestations are asked for if the image is within reach, has a digest, and was not cancelled at
its signatures. -/
theorem before_attestations
    (hcall : .attestations (r.resolved image) c.publicKey c.rekorUrl ∈ calls) :
    r.probe = .ok () ∧ (∃ digest, r.digest = .ok digest ∧ IsDigest digest r.hex) ∧
      r.imageSignatures ≠ .error .cancelled ∧
      .imageSignatures (r.resolved image) c.publicKey c.rekorUrl ∈ calls := by
  have hbefore := h.before
    [r.accessGate image url, r.digestGate image url, r.signaturesGate image c url]
    (r.attestationsGate image c url) rfl hcall
  simp only [List.forall_mem_cons, accessGate_open_iff, digestGate_open_iff,
    signaturesGate_open_iff] at hbefore
  obtain ⟨⟨hprobe, -⟩, ⟨hdigest, -⟩, ⟨hsignatures, hasked⟩, -⟩ := hbefore
  exact ⟨hprobe, hdigest, hsignatures, hasked⟩

/-- The input is staged if an attestation counts. -/
theorem before_staging (hcall : .writeInput r.counted.length ∈ calls) :
    .attestations (r.resolved image) c.publicKey c.rekorUrl ∈ calls ∧
      (∃ as, r.attestations = .ok as) ∧ r.counted ≠ [] := by
  have hbefore := h.before
    [r.accessGate image url, r.digestGate image url, r.signaturesGate image c url,
      r.attestationsGate image c url] r.stagingGate rfl hcall
  obtain ⟨hopen, hasked⟩ := hbefore (r.attestationsGate image c url) (by simp)
  exact ⟨hasked, attestationsGate_open_iff.mp hopen⟩

/-- Evaluators are asked after the input is staged, and after those before have results. -/
theorem before_evaluation {e : Call × Reply (List CheckGroup)}
    {before after : List (Call × Reply (List CheckGroup))}
    (hsplit : r.evaluations = before ++ e :: after) (hcall : e.1 ∈ calls) :
    .writeInput r.counted.length ∈ calls ∧ ∀ x ∈ before, ∃ groups, x.2 = .ok groups := by
  have hgates : r.gates image c url =
      ([r.accessGate image url, r.digestGate image url, r.signaturesGate image c url,
        r.attestationsGate image c url, r.stagingGate] ++
          before.map (r.evaluationGate image url)) ++
        r.evaluationGate image url e :: after.map (r.evaluationGate image url) := by
    rw [gates, hsplit]
    simp
  have hbefore := h.before _ _ hgates hcall
  refine ⟨(hbefore r.stagingGate (by simp)).2, fun x hx => ?_⟩
  exact evaluationGate_open_iff.mp
    (hbefore (r.evaluationGate image url x) (List.mem_append_right _ (List.mem_map_of_mem hx))).1

/-- A run goes on to the classification just if no gate ends it. -/
theorem complete_iff : r.Complete calls ↔ ∀ g ∈ r.gates image c url, g.ending = none := by
  constructor
  · rintro ⟨hasked, hstaged, hevaluated⟩
    obtain ⟨hcall, hattestations⟩ := h.before_staging hasked
    obtain ⟨hprobe, hdigest, hsignatures, -⟩ := h.before_attestations hcall
    simp only [gates, List.forall_mem_cons, List.forall_mem_map]
    exact ⟨accessGate_open_iff.mpr hprobe, digestGate_open_iff.mpr hdigest,
      signaturesGate_open_iff.mpr hsignatures, attestationsGate_open_iff.mpr hattestations,
      stagingGate_open_iff.mpr hstaged,
      fun e he => evaluationGate_open_iff.mpr (hevaluated e he)⟩
  · intro hopen
    have hcalls : calls = (r.gates image c url).map Gate.call := by
      rw [h.calls_eq, reached_of_open hopen]
    simp only [gates, List.forall_mem_cons, List.forall_mem_map] at hopen
    obtain ⟨-, -, -, -, hstaging, hevaluations⟩ := hopen
    refine ⟨?_, stagingGate_open_iff.mp hstaging,
      fun e he => evaluationGate_open_iff.mp (hevaluations e he)⟩
    rw [hcalls]
    exact List.mem_map.mpr ⟨r.stagingGate, by simp [gates], rfl⟩

/-- **How a run ends**: at a call whose reply ends it, or with the classification. -/
theorem verdict_eq_iff : verdict = v ↔
    (∃ call ∈ calls, r.EndsAt image c url call v) ∨
      r.Complete calls ∧ r.classification image c = v := by
  rw [h.complete_iff, h.verdict_eq, decided_eq_iff]
  refine or_congr_left ?_
  constructor
  · rintro ⟨g, hg, hends⟩
    refine ⟨g.call, ?_, endsAt_of_mem_gates (mem_of_mem_reached hg) hends⟩
    rw [h.calls_eq]
    exact List.mem_map_of_mem hg
  · rintro ⟨call, hcall, hends⟩
    obtain ⟨g, hg, rfl, hgate⟩ := mem_gates_of_endsAt hends
    rw [h.calls_eq] at hcall
    exact ⟨g, mem_reached_of_call h.nodup hg hcall, hgate⟩

/-- **A run that ends in a report** did so at the access, at the attestations, or in the end. -/
theorem reported {report : Report} (hok : verdict = .ok report) :
    r.Reported image c url calls report := by
  rcases h.verdict_eq_iff.mp hok with ⟨call, hcall, hends⟩ | ⟨hcomplete, hclassified⟩
  · cases hends with
    | @refused stage call err _ hr hv =>
      rcases refusal_eq_ok hv with rfl | rfl
      · cases hr with
        | access hr =>
          cases err with
          | cancelled => cases hv
          | failed text => cases hv; exact .unreachable hcall hr
          | io text => cases hv; exact .unreachable hcall hr
      · cases hr with
        | attestations hr =>
          cases err with
          | cancelled => cases hv
          | failed text => cases hv; exact .unattested hcall hr
          | io text => cases hv; exact .unattested hcall hr
    | unmatched has hnone => exact .unmatched hcall has hnone
  · obtain ⟨-, ⟨as, has⟩, -⟩ := h.before_staging hcomplete.asked
    unfold classification at hclassified
    cases hc : (Classifier.ofContext (r.governed c)).classify? r.groups with
    | none =>
      rw [hc] at hclassified
      cases hclassified
    | some checks =>
      rw [hc, has] at hclassified
      cases hclassified
      exact .evaluated hcomplete has hc

end Run
end Replies

namespace Pipeline

variable {p : Pipeline} {url : String} {image : ImageReference} {c : PolicyContext} {s : Session}

/-- Every run about an image is a run with the replies about it, and then the release. -/
theorem validate_run (h : ImageReference.parse url = .ok image) : ∃ calls,
    (p.validate url c s).2.calls = s.calls ++ calls ++ releases p.evaluators.length ∧
      (p.replies image c s).Run image c url calls (p.validate url c s).1 :=
  ⟨_, (validate_gates h).2, rfl, (validate_gates h).1, gates_nodup⟩

/-- A run is complete just if every evaluator was heard. -/
theorem complete_iff_heard {calls : List Call} {verdict : Verdict}
    (h : (p.replies image c s).Run image c url calls verdict) :
    (p.replies image c s).Complete calls ↔
      (p.replies image c s).Heard p.evaluators.length calls := by
  have hgates : ((p.replies image c s).gates image c url).map Gate.call =
      ((p.replies image c s).steps image c).map Prod.fst := by
    rw [Replies.steps_eq_gates url, List.map_map]
    rfl
  have hprefix : (((p.replies image c s).gates image c url).map Gate.call).map Call.task <+:
      protocol p.evaluators.length := hgates ▸ steps_tasks_isPrefix
  constructor
  · intro hcomplete
    have hcalls : calls = ((p.replies image c s).gates image c url).map Gate.call := by
      rw [h.calls_eq, reached_of_open (h.complete_iff.mp hcomplete)]
    refine ⟨hcomplete.staged, ?_, hcomplete.evaluated⟩
    rw [hcalls]
    refine hprefix.eq_of_length ?_
    simp [Replies.gates, protocol, length_evaluations hcomplete.staged]
  · rintro ⟨hstaged, htasks, hevaluated⟩
    have hcalls : calls <+: ((p.replies image c s).gates image c url).map Gate.call := by
      rw [h.calls_eq]
      exact (reached_isPrefix _).map _
    have hlength : ((p.replies image c s).gates image c url).length ≤ calls.length := by
      have hle := hprefix.length_le
      rw [← htasks] at hle
      simpa using hle
    refine ⟨?_, hstaged, hevaluated⟩
    rw [hcalls.eq_of_length_le (by simpa using hlength)]
    simp [Replies.gates, Replies.stagingGate]

/-- A text that is no reference ends a run at once. -/
theorem validate_of_malformed {fault : ReferenceFault}
    (h : ImageReference.parse url = .error fault) :
    p.validate url c s = (.error (.reference url fault), s.releaseAll p.evaluators.length) := by
  unfold validate
  rw [run_of_malformed h]

end Pipeline
end ImagePolicy
