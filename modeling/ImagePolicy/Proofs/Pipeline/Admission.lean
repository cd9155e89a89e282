/-
# When an image passes

An image passes if its run ends in a report in which nothing blocks. That can be read off the
replies (`Favourable`): each collaborator has to answer, each in its own way, every statement has
to be well-formed and one has to be about the image, the rules have to say something, and no
failure that the policy keeps may block at the time that governs the run. These are all the
conditions there are, and none of them can be left out.

Key definitions: `Passes`, `Favourable`.
Key theorems: `Report.passed_iff`, `policyOutcome_passes_iff`, `Replies.passes_verdict_iff`,
`Pipeline.validate_passes_iff`.
-/
import ImagePolicy.Proofs.Pipeline.Replies
import ImagePolicy.Proofs.Rule.Partition
import ImagePolicy.Proofs.Attestation.Governing

namespace ImagePolicy

/-- A verdict is a report in which nothing blocks. -/
def Passes (v : Verdict) : Prop :=
  ∃ report, v = .ok report ∧ report.passed = true

/-! ### Reports in which nothing blocks -/

/-- A report passes if no stage left a message and the rules left no failure. -/
theorem Report.passed_iff {report : Report} : report.passed = true ↔
    (∀ status, some status ∈ report.stages → status.violation? = none) ∧
      ∀ g ∈ report.policyCheck, g.failures = [] := by
  have hstages : report.stageViolations = [] ↔
      ∀ status, some status ∈ report.stages → status.violation? = none := by
    unfold stageViolations
    rw [List.filterMap_eq_nil_iff]
    constructor
    · intro h status hm
      exact h (some status) hm
    · rintro h (_ | status) hm
      · rfl
      · exact h status hm
  rw [passed, List.isEmpty_iff, violations, List.append_eq_nil_iff, hstages,
    List.flatMap_eq_nil_iff]

theorem pass_violation? (message : String) : (StageStatus.pass message).violation? = none := rfl

theorem signatureStatus_violation?_eq_none_iff {reply : Reply (List Signature)} :
    (signatureStatus reply).violation? = none ↔ ∃ signatures, reply = .ok signatures := by
  cases reply <;> simp [signatureStatus, StageStatus.violation?, StageStatus.pass, StageStatus.fail]

theorem shapeStatus_violation?_eq_none_iff {faults : List IndexedFault} :
    (shapeStatus faults).violation? = none ↔ faults = [] := by
  unfold shapeStatus
  cases faults <;> simp [StageStatus.violation?, StageStatus.pass, StageStatus.fail]

/-! ### Gates -/

section Gates

variable {url : String} {image : ImageReference} {report : Report} {next : Verdict}

theorem not_passes_error {err : VerificationError} : ¬Passes (.error err) := by
  rintro ⟨_, h, _⟩
  cases h

theorem passes_ok_iff : Passes (.ok report) ↔ report.passed = true := by
  simp [Passes]

theorem passes_map_iff {α : Type} {result : Except VerificationError α} {f : α → Report} :
    Passes (result.map f) ↔ ∃ a, result = .ok a ∧ Passes (.ok (f a)) := by
  cases result <;> simp [Except.map, not_passes_error]

/-- A report with a failed stage does not pass. -/
theorem not_passes_of_fail {message : String}
    (h : some (StageStatus.fail message) ∈ report.stages) : ¬Passes (.ok report) := by
  rw [passes_ok_iff, Report.passed_iff]
  rintro ⟨hstages, _⟩
  cases hstages _ h

theorem passes_probeGate_iff {reply : Reply Unit} :
    Passes (probeGate url reply next) ↔ reply = .ok () ∧ Passes next := by
  rcases reply with err | ⟨⟩
  · have hnot : ¬Passes (probeGate url (.error err) next) := by
      cases err with
      | cancelled => exact not_passes_error
      | failed text => exact not_passes_of_fail List.mem_cons_self
      | io text => exact not_passes_of_fail List.mem_cons_self
    simp [hnot]
  · simp [probeGate]

theorem passes_digestGate_iff {reply : Reply String} :
    Passes (digestGate image reply next) ↔
      (∃ digest, reply = .ok digest ∧ ∃ hex, IsDigest digest hex) ∧ Passes next := by
  rcases reply with err | digest
  · simp [digestGate, not_passes_error]
  · cases hres : image.resolve digest with
    | error fault =>
      have hbad : ¬∃ hex, IsDigest digest hex := fun hd => by
        rw [ImageReference.resolve_eq_ok_iff.mpr ⟨hd, rfl⟩] at hres
        cases hres
      simp [digestGate, hres, not_passes_error, hbad]
    | ok found =>
      have hd := (ImageReference.resolve_eq_ok_iff.mp hres).1
      simp [digestGate, hres, hd]

theorem passes_signatureGate_iff {reply : Reply (List Signature)} :
    Passes (signatureGate reply next) ↔ reply ≠ .error .cancelled ∧ Passes next := by
  rcases reply with (_ | _ | _) | _ <;> simp [signatureGate, not_passes_error]

theorem passes_attestationGate_iff {reply : Reply (List Attestation)}
    {next : List Attestation → Verdict} :
    Passes (attestationGate report reply next) ↔ ∃ as, reply = .ok as ∧ Passes (next as) := by
  rcases reply with err | as
  · have hnot : ¬Passes (attestationGate report (.error err) next) := by
      cases err with
      | cancelled => exact not_passes_error
      | failed text => exact not_passes_of_fail (.tail _ (.tail _ (.head _)))
      | io text => exact not_passes_of_fail (.tail _ (.tail _ (.head _)))
    simp [hnot]
  · simp [attestationGate]

end Gates

/-! ### The policy -/

/-- The results of evaluators come about if each of them has results. -/
theorem gather_eq_ok_iff {replies : List (Reply (List CheckGroup))} {groups : List CheckGroup} :
    gather replies = .ok groups ↔ (∀ reply ∈ replies, ∃ gs, reply = .ok gs) ∧
      groups = replies.flatMap fun reply => reply.toOption.getD [] := by
  induction replies generalizing groups with
  | nil => simp [gather, eq_comm]
  | cons reply replies ih =>
    rcases reply with err | gs
    · simp [gather]
    · rw [List.forall_mem_cons, List.flatMap_cons]
      unfold gather
      cases hrest : gather replies with
      | error err =>
        have hnone : ¬∀ reply ∈ replies, ∃ gs, reply = .ok gs := fun h => by
          rw [ih.mpr ⟨h, rfl⟩] at hrest
          cases hrest
        simp [hnone]
      | ok more =>
        obtain ⟨hall, rfl⟩ := ih.mp hrest
        constructor
        · intro h
          cases h
          exact ⟨⟨⟨gs, rfl⟩, hall⟩, rfl⟩
        · rintro ⟨_, rfl⟩
          rfl

/-- Nothing blocks in a group that is classified if what is kept of its failures does not block
yet. -/
theorem classifyGroup_failures_eq_nil_iff {c : PolicyContext} {g : CheckGroup} :
    ((Classifier.ofContext c).classifyGroup g).failures = [] ↔
      ∀ x ∈ g.failures, Kept c x → NotYet c.instant x := by
  rw [Classifier.classifyGroup_failures, List.filter_eq_nil_iff]
  simp only [decide_eq_true_iff, not_and, Decidable.not_not]

/-- **The policy lets an image pass** if an attestation counts, all evaluators answer and say
something, and no failure that is kept blocks. -/
theorem policyOutcome_passes_iff {c : PolicyContext} {counted : List Attestation}
    {staging : Except VerificationError (StagedInput × Disk)}
    {evaluations : List (Call × Reply (List CheckGroup))} {groups : List CheckGroup}
    (hgroups : evaluations.flatMap (fun e => e.2.toOption.getD []) = groups) :
    (∃ checks, policyOutcome c counted staging evaluations = .ok checks ∧
      ∀ g ∈ checks, g.failures = []) ↔
    counted ≠ [] ∧ (∃ input, staging = .ok input) ∧ (∀ e ∈ evaluations, ∃ gs, e.2 = .ok gs) ∧
      (∃ g ∈ groups, Classifier.Tells c g) ∧
      ∀ g ∈ groups, ∀ x ∈ g.failures, Kept c x → NotYet c.instant x := by
  have hgather : ∀ gs, gather (evaluations.map Prod.snd) = .ok gs ↔
      (∀ e ∈ evaluations, ∃ gs, e.2 = .ok gs) ∧ gs = groups := fun gs => by
    rw [gather_eq_ok_iff, List.forall_mem_map, List.flatMap_map, ← hgroups]
  unfold policyOutcome
  by_cases hnone : counted = []
  · -- the check that stands in for the policy is itself a failure
    simp [hnone, noMatchCheck]
  · rw [if_neg (fun h => hnone (List.isEmpty_iff.mp h))]
    rcases staging with err | input
    · simp
    · cases hg : gather (evaluations.map Prod.snd) with
      | error err =>
        have hall : ¬∀ e ∈ evaluations, ∃ gs, e.2 = .ok gs := fun h => by
          rw [(hgather groups).mpr ⟨h, rfl⟩] at hg
          cases hg
        exact ⟨fun ⟨_, h, _⟩ => (nomatch h), fun h => absurd h.2.2.1 hall⟩
      | ok gs =>
        obtain ⟨hall, rfl⟩ := (hgather gs).mp hg
        simp only [← classifyGroup_failures_eq_nil_iff]
        cases hc : (Classifier.ofContext c).classify? gs with
        | none =>
          have hsilent := (Classifier.classify?_eq_none_iff c).mp hc
          simp [hsilent]
        | some out =>
          obtain ⟨htells, rfl⟩ := (Classifier.classify?_eq_some_iff c).mp hc
          simp only [Except.ok.injEq, exists_eq_left', List.forall_mem_map]
          exact ⟨fun h => ⟨hnone, ⟨input, rfl⟩, hall, htells, h⟩, fun h => h.2.2.2.2⟩

/-! ### The replies that let an image pass -/

theorem kept_attested_iff {c : PolicyContext} {as : List Attestation} {x : RuleResult} :
    Kept (c.attested as) x ↔ Kept c x := by
  rw [attested_eq]
  exact ⟨fun h => ⟨h.1, h.2⟩, fun h => ⟨h.1, h.2⟩⟩

theorem tells_attested_iff {c : PolicyContext} {as : List Attestation} {g : CheckGroup} :
    Classifier.Tells (c.attested as) g ↔ Classifier.Tells c g := by
  simp only [Classifier.Tells, kept_attested_iff]

/-- The replies about an image with which it passes a context and a number of evaluators. -/
structure Favourable (c : PolicyContext) (evaluators : Nat) (r : Replies) : Prop where
  reached : r.probe = .ok ()
  resolved : ∃ digest, r.digest = .ok digest ∧ IsDigest digest r.hex
  signed : ∃ signatures, r.imageSignatures = .ok signatures
  attested : ∃ as, r.attestations = .ok as ∧ (∀ a ∈ as, a.fault? = none) ∧
    ∃ a ∈ as, r.hex ∈ a.subjectDigests
  staged : ∃ input, r.staging = .ok input
  evaluated : r.evaluations.length = evaluators ∧ ∀ e ∈ r.evaluations, ∃ groups, e.2 = .ok groups
  found : ∃ g ∈ r.groups, Classifier.Tells c g
  unblocked : ∀ i, Governs c r.counted i →
    ∀ g ∈ r.groups, ∀ x ∈ g.failures, Kept c x → NotYet i x

namespace Replies

variable {r : Replies} {image : ImageReference} {c : PolicyContext}

theorem isDigest_hex {digest hex : String} (h : r.digest = .ok digest) (hd : IsDigest digest hex) :
    IsDigest digest r.hex := by
  have hhex : r.hex = hex := by
    simp [Replies.hex, h, Except.toOption, dropFront?_of_isDigest hd]
  exact hhex ▸ hd

theorem passes_judged_iff {as : List Attestation} {checks : List CheckGroup} :
    Passes (.ok ((r.begun image).judged (r.governed c) r.imageSignatures as checks)) ↔
      (∃ signatures, r.imageSignatures = .ok signatures) ∧ (∀ a ∈ as, a.fault? = none) ∧
        ∀ g ∈ checks, g.failures = [] := by
  rw [passes_ok_iff, Report.passed_iff, ← faults_eq_nil_iff, ← shapeStatus_violation?_eq_none_iff,
    ← signatureStatus_violation?_eq_none_iff]
  simp [Report.judged, begun, Report.stages, pass_violation?, and_assoc]

/-- An attestation counts, where all of them are well-formed, if the image is a subject of one. -/
theorem counted_ne_nil_iff {as : List Attestation} (h : r.attestations = .ok as)
    (hok : ∀ a ∈ as, a.fault? = none) : r.counted ≠ [] ↔ ∃ a ∈ as, r.hex ∈ a.subjectDigests := by
  have hcounted : r.counted = counting r.hex as := by rw [counted, h]; rfl
  rw [hcounted, counting_ne_nil_iff]
  exact exists_congr fun a => and_congr_right fun ha => and_iff_right (hok a ha)

/-- **An image passes with the favourable replies, and with no others.** -/
theorem passes_verdict_iff {url : String} :
    Passes (r.verdict image c url) ↔ Favourable c r.evaluations.length r := by
  rw [verdict, passes_probeGate_iff, passes_digestGate_iff, passes_signatureGate_iff,
    passes_attestationGate_iff]
  simp only [passes_map_iff, passes_judged_iff]
  constructor
  · rintro ⟨hreached, ⟨digest, hdigest, _, hd⟩, -, as, has, checks, hout, hsigned, hshape, hnone⟩
    obtain ⟨hsome, hstaged, hevaluated, hfound, hunblocked⟩ :=
      (policyOutcome_passes_iff rfl).mp ⟨checks, hout, hnone⟩
    exact {
      reached := hreached
      resolved := ⟨digest, hdigest, isDigest_hex hdigest hd⟩
      signed := hsigned
      attested := ⟨as, has, hshape, (counted_ne_nil_iff has hshape).mp hsome⟩
      staged := hstaged
      evaluated := ⟨rfl, hevaluated⟩
      found := hfound.imp fun _ => And.imp_right tells_attested_iff.mp
      unblocked := fun i hi g hg x hx hk =>
        governs_iff.mp hi ▸ hunblocked g hg x hx (kept_attested_iff.mpr hk) }
  · intro h
    obtain ⟨digest, hdigest, hd⟩ := h.resolved
    obtain ⟨as, has, hshape, hsubject⟩ := h.attested
    have hfound : ∃ g ∈ r.groups, Classifier.Tells (r.governed c) g :=
      h.found.imp fun _ => And.imp_right tells_attested_iff.mpr
    obtain ⟨checks, hout, hnone⟩ := (policyOutcome_passes_iff rfl).mpr
      ⟨(counted_ne_nil_iff has hshape).mpr hsubject, h.staged, h.evaluated.2, hfound,
        fun g hg x hx hk => h.unblocked _ (governs_iff.mpr rfl) g hg x hx (kept_attested_iff.mp hk)⟩
    have hsigned : r.imageSignatures ≠ .error .cancelled := by
      obtain ⟨signatures, hs⟩ := h.signed
      simp [hs]
    exact ⟨h.reached, ⟨digest, hdigest, _, hd⟩, hsigned, as, has, checks, hout, h.signed, hshape,
      hnone⟩

end Replies

namespace Pipeline

variable {p : Pipeline} {image : ImageReference} {c : PolicyContext} {s : Session}

theorem length_askEvaluators (input : Path) : ∀ (index : Nat) (es : List Evaluator) (s : Session),
    (askEvaluators input c index es s).length = es.length
  | _, [], _ => rfl
  | index, e :: es, s => congrArg Nat.succ <|
      length_askEvaluators input (index + 1) es (s.evaluate index e input c).2

/-- All evaluators are asked once the input is staged. -/
theorem length_evaluations (h : ∃ input, (p.replies image c s).staging = .ok input) :
    (p.replies image c s).evaluations.length = p.evaluators.length := by
  obtain ⟨input, h⟩ := h
  simp only [replies] at h ⊢
  rw [evaluations, h]
  exact length_askEvaluators _ _ _ _

/-- **What makes an image pass.** Whatever the collaborators reply, an image passes if its
reference is one and the replies about it are favourable, and not otherwise. -/
theorem validate_passes_iff (p : Pipeline) (url : String) (c : PolicyContext) (s : Session) :
    Passes (p.validate url c s).1 ↔ ∃ image, ImageReference.parse url = .ok image ∧
      Favourable c p.evaluators.length (p.replies image c s) := by
  have hvalidate : (p.validate url c s).1 = (p.run url c s).1 := rfl
  rw [hvalidate]
  cases hparse : ImageReference.parse url with
  | error fault => simp [run_of_malformed hparse, not_passes_error]
  | ok image =>
    rw [(run_goes hparse).verdict_eq, Replies.passes_verdict_iff]
    have hlength : Favourable c (p.replies image c s).evaluations.length (p.replies image c s) ↔
        Favourable c p.evaluators.length (p.replies image c s) :=
      ⟨fun h => length_evaluations h.staged ▸ h, fun h => (length_evaluations h.staged).symm ▸ h⟩
    simp [hlength]

end Pipeline
end ImagePolicy
