/-
# The reports of a run

A run that ends in a report ended in one of four places: at the access to the image, at its
attestations, because none of them counts, or behind the evaluators. The place can be read off the
report (`ReportKind.of`, which has to be told besides whether an attestation counts, since an
evaluator may say the very words that stand for none), and each place leaves all the fields of the
report in a state of its own: what never came about is absent, what did is there, and nothing is
in between.

Key definitions: `ReportKind`, `Replies.HasKind`, `Replies.Unreachable`, `Replies.Unattested`,
`Replies.Unmatched`, `Replies.Evaluated`, `ReportKind.of`.
Key theorems: `Replies.HasKind.eq`, `Replies.Run.exists_kind`, `Pipeline.validate_report`.
-/
import ImagePolicy.Proofs.Pipeline.Errors

namespace ImagePolicy

/-- Where a run that ends in a report has ended. -/
inductive ReportKind where
  | unreachable
  | unattested
  | unmatched
  | evaluated
  deriving DecidableEq, Repr

/-- A stage was run, and it passed just if something holds. -/
def Noted (status : Option StageStatus) (P : Prop) : Prop :=
  ∃ st, status = some st ∧ (st.passed = true ↔ P)

/-- A report that has nothing to tell of verified attestations. -/
structure Report.Unjudged (report : Report) : Prop where
  attestationShape : report.attestationShape = none
  policyCheck : report.policyCheck = []
  signatures : report.signatures = []
  effectiveTime : report.effectiveTime = none

/-- The kind of a report, if it is known whether an attestation counts. -/
def ReportKind.of (report : Report) (matched : Bool) : ReportKind :=
  match report.attestationSignature with
  | none => .unreachable
  | some st =>
    if st.passed then
      if matched then .evaluated else .unmatched
    else .unattested

namespace Replies

section Shapes

variable (r : Replies) (image : ImageReference) (c : PolicyContext) (url : String)
  (evaluators : Nat) (calls : List Call) (report : Report)

/-- The image is out of reach: the text as it was given, and the access that failed. -/
structure Unreachable : Prop extends report.Unjudged where
  imageUrl : report.imageUrl = url
  imageAccessible : ∃ err, r.probe = .error err ∧
    report.imageAccessible = some (.fail (Stage.imageAccess.complaint ++ err.told))
  imageSignature : report.imageSignature = none
  attestationSignature : report.attestationSignature = none

/-- The image is within reach, and from then on is named by the digest that was replied. -/
structure Resolved : Prop where
  imageUrl : ∃ digest, r.digest = .ok digest ∧ IsDigest digest r.hex ∧
    report.imageUrl = image.registry ++ "/" ++ image.repository ++ "@" ++ digest
  imageAccessible : Noted report.imageAccessible True
  imageSignature : Noted report.imageSignature (∃ signatures, r.imageSignatures = .ok signatures)

/-- The attestations do not verify. -/
structure Unattested : Prop extends r.Resolved image report, report.Unjudged where
  attestationSignature : ∃ err, r.attestations = .error err ∧
    report.attestationSignature = some (.fail (Stage.attestationSignatures.complaint ++ err.told))

/-- The attestations verify. Signatures are those of the image, or of its attestations if it has
none that verify. -/
structure Attested : Prop extends r.Resolved image report where
  attestationSignature : Noted report.attestationSignature True
  attestationShape : ∃ as, r.attestations = .ok as ∧
    Noted report.attestationShape (∀ a ∈ as, a.fault? = none)
  signed : ∀ signatures, r.imageSignatures = .ok signatures → report.signatures = signatures
  unsigned : ∀ err, r.imageSignatures = .error err → ∃ as, r.attestations = .ok as ∧
    report.signatures = as.flatMap Attestation.signatures
  effectiveTime : ∃ i, Governs c r.counted i ∧ report.effectiveTime = some i

/-- No attestation counts: one failure stands for all that the policy would have to say. -/
structure Unmatched : Prop extends r.Attested image c report where
  counted : r.counted = []
  policyCheck : report.policyCheck = [{ failures := [{ message := noMatchingAttestation }] }]

/-- The evaluators were asked, all of them in order, and the report has what the classification
makes of all their groups in this order. -/
structure Evaluated : Prop extends r.Attested image c report, r.Heard evaluators calls where
  counted : r.counted ≠ []
  inOrder : r.evaluations.map (fun e => e.1.task) = (List.range evaluators).map Task.evaluate
  policyCheck : List.Forall₂ (Classifier.Partitioned (r.governed c)) r.groups report.policyCheck
  found : ∃ g ∈ report.policyCheck, g.successes ++ g.warnings ++ g.failures ≠ []

/-- What it means for a report to come from one of the four places. -/
def HasKind : ReportKind → Prop
  | .unreachable => r.Unreachable url report
  | .unattested => r.Unattested image report
  | .unmatched => r.Unmatched image c report
  | .evaluated => r.Evaluated image c evaluators calls report

end Shapes

variable {r : Replies} {image : ImageReference} {c : PolicyContext} {url : String}
  {evaluators : Nat} {calls : List Call} {report : Report}

/-! ### The kinds exclude each other -/

/-- A report is of one kind only. -/
theorem HasKind.eq {kind : ReportKind}
    (h : r.HasKind image c url evaluators calls report kind) :
    ReportKind.of report (!r.counted.isEmpty) = kind := by
  cases kind with
  | unreachable =>
    have h : r.Unreachable url report := h
    simp [ReportKind.of, h.attestationSignature]
  | unattested =>
    have h : r.Unattested image report := h
    obtain ⟨err, -, hfail⟩ := h.attestationSignature
    simp [ReportKind.of, hfail, StageStatus.fail]
  | unmatched =>
    have h : r.Unmatched image c report := h
    obtain ⟨st, hst, hpassed⟩ := h.attestationSignature
    simp [ReportKind.of, hst, hpassed, h.counted]
  | evaluated =>
    have h : r.Evaluated image c evaluators calls report := h
    obtain ⟨st, hst, hpassed⟩ := h.attestationSignature
    simp [ReportKind.of, hst, hpassed, h.counted]

/-! ### Every report has a kind -/

theorem noted_pass {message : String} : Noted (some (.pass message)) True :=
  ⟨_, rfl, by simp [StageStatus.pass]⟩

theorem noted_signatureStatus : Noted (some (signatureStatus r.imageSignatures))
    (∃ signatures, r.imageSignatures = .ok signatures) := by
  refine ⟨_, rfl, ?_⟩
  cases r.imageSignatures <;> simp [signatureStatus, StageStatus.pass, StageStatus.fail]

theorem noted_shapeStatus (as : List Attestation) :
    Noted (some (shapeStatus (partitionByShape as).2)) (∀ a ∈ as, a.fault? = none) := by
  refine ⟨_, rfl, ?_⟩
  rw [← faults_eq_nil_iff]
  unfold shapeStatus
  cases (partitionByShape as).2 <;> simp [StageStatus.pass, StageStatus.fail]

/-- What a report was begun with is that the image is resolved. -/
theorem resolved_of_begun (hd : ∃ digest, r.digest = .ok digest ∧ IsDigest digest r.hex)
    (hurl : report.imageUrl = (r.begun image).imageUrl)
    (haccess : report.imageAccessible = (r.begun image).imageAccessible)
    (hsignature : report.imageSignature = (r.begun image).imageSignature) :
    r.Resolved image report where
  imageUrl := by
    obtain ⟨digest, hdigest, hd⟩ := hd
    refine ⟨digest, hdigest, hd, hurl.trans ?_⟩
    simp [begun, resolved, hdigest, Except.toOption, ImageReference.render, ImageReference.pinned,
      ImageReference.name, String.append_assoc]
  imageAccessible := haccess ▸ noted_pass
  imageSignature := hsignature ▸ noted_signatureStatus

theorem attested_report {as : List Attestation} {checks : List CheckGroup}
    (hd : ∃ digest, r.digest = .ok digest ∧ IsDigest digest r.hex)
    (has : r.attestations = .ok as) : r.Attested image c (r.report image c as checks) where
  toResolved := resolved_of_begun hd rfl rfl rfl
  attestationSignature := noted_pass
  attestationShape := ⟨as, has, noted_shapeStatus as⟩
  signed := by
    intro signatures h
    simp [report, Report.judged, reportedSignatures, h]
  unsigned := by
    intro err h
    refine ⟨as, has, ?_⟩
    simp [report, Report.judged, reportedSignatures, h]
  effectiveTime := ⟨_, governs_iff.mpr rfl, rfl⟩

/-- Groups that are classified are each a partition, and hold something. -/
theorem partitioned_of_classify? {checks : List CheckGroup}
    (h : (Classifier.ofContext c).classify? r.groups = some checks) :
    List.Forall₂ (Classifier.Partitioned c) r.groups checks ∧
      ∃ g ∈ checks, g.successes ++ g.warnings ++ g.failures ≠ [] := by
  obtain ⟨⟨g, hg, htells⟩, rfl⟩ := (Classifier.classify?_eq_some_iff c).mp h
  constructor
  · rw [List.forall₂_map_right_iff, List.forall₂_same]
    exact fun g _ => Classifier.classifyGroup_partition c g
  · refine ⟨_, List.mem_map_of_mem hg, ?_⟩
    have htotal := (Classifier.classifyGroup_total_ne_zero_iff c g).mpr htells
    unfold CheckGroup.total at htotal
    rw [ne_eq, ← List.length_eq_zero_iff, List.length_append, List.length_append]
    omega

/-- **Every report has a kind.** -/
theorem Run.exists_kind {verdict : Verdict} (h : r.Run image c url calls verdict)
    (hcomplete : r.Complete calls ↔ r.Heard evaluators calls)
    (hinOrder : r.Heard evaluators calls →
      r.evaluations.map (fun e => e.1.task) = (List.range evaluators).map Task.evaluate)
    (hok : verdict = .ok report) :
    ∃ kind, r.HasKind image c url evaluators calls report kind := by
  cases h.reported hok with
  | @unreachable err _ hr =>
    exact ⟨.unreachable, ⟨⟨rfl, rfl, rfl, rfl⟩, rfl, ⟨err, hr, rfl⟩, rfl, rfl⟩⟩
  | @unattested err hcall hr =>
    obtain ⟨-, hdigest, -⟩ := h.before_attestations hcall
    exact ⟨.unattested,
      ⟨resolved_of_begun hdigest rfl rfl rfl, ⟨rfl, rfl, rfl, rfl⟩, ⟨err, hr, rfl⟩⟩⟩
  | unmatched hcall has hnone =>
    obtain ⟨-, hdigest, -⟩ := h.before_attestations hcall
    exact ⟨.unmatched, ⟨attested_report hdigest has, hnone, rfl⟩⟩
  | evaluated hdone has hclassified =>
    obtain ⟨hcall, -, hcounted⟩ := h.before_staging hdone.asked
    obtain ⟨-, hdigest, -⟩ := h.before_attestations hcall
    have hheard := hcomplete.mp hdone
    obtain ⟨hpartitioned, hfound⟩ := partitioned_of_classify? hclassified
    exact ⟨.evaluated, ⟨attested_report hdigest has, hheard, hcounted, hinOrder hheard,
      hpartitioned, hfound⟩⟩

end Replies

namespace Pipeline

variable {p : Pipeline} {image : ImageReference} {c : PolicyContext} {s : Session}

/-- Evaluators are asked in their order once the input is staged. -/
theorem evaluations_tasks (h : ∃ input, (p.replies image c s).staging = .ok input) :
    (p.replies image c s).evaluations.map (fun e => e.1.task) =
      (List.range p.evaluators.length).map Task.evaluate := by
  refine (evaluations_tasks_isPrefix _).eq_of_length ?_
  rw [List.length_map, List.length_map, List.length_range]
  exact length_evaluations h

/-- **The shape of every report.** A run that ends in a report is about an image, and the report
is of exactly one of the four kinds. -/
theorem validate_report (p : Pipeline) (url : String) (c : PolicyContext) (s : Session)
    (report : Report) (hok : (p.validate url c s).1 = .ok report) :
    ∃ image calls, ImageReference.parse url = .ok image ∧
      (p.validate url c s).2.calls = s.calls ++ calls ++ releases p.evaluators.length ∧
      ∃! kind, (p.replies image c s).HasKind image c url p.evaluators.length calls report kind := by
  cases hparse : ImageReference.parse url with
  | error fault =>
    rw [validate_of_malformed hparse] at hok
    cases hok
  | ok image =>
    obtain ⟨calls, hcalls, hrun⟩ := validate_run (p := p) (c := c) (s := s) hparse
    obtain ⟨kind, hkind⟩ := hrun.exists_kind (complete_iff_heard hrun)
      (fun hheard => evaluations_tasks hheard.staged) hok
    refine ⟨image, calls, rfl, hcalls, kind, hkind, fun other hother => ?_⟩
    exact hother.eq.symm.trans hkind.eq

/-- The report on an image of which an evaluator tells a success is of exactly one kind, and it
looks like the last. -/
theorem validate_report_built :
    let hex := String.ofList (List.replicate 64 'a')
    let about : Attestation := {
      statement := .object [
        ("_type", .text "https://in-toto.io/Statement/v1"), ("predicate", .object []),
        ("predicateType", .text "https://slsa.dev/provenance/v1"),
        ("subject", .list [.object [("digest", .object [("sha256", .text hex)])]])] }
    let p := replying ("sha256:" ++ hex) (.ok []) (.ok [about])
      [{ successes := [{ message := "built" }] }]
    let c : PolicyContext := ⟨"key", none, [], [], [], [], [], .now ⟨0, 0⟩⟩
    let s := Session.initial ⟨[], 0, []⟩
    ∃ report, (p.validate "localhost/app:1" c s).1 = .ok report ∧
      ReportKind.of report true = .evaluated ∧
      ∃ image calls, ImageReference.parse "localhost/app:1" = .ok image ∧
        (p.validate "localhost/app:1" c s).2.calls = s.calls ++ calls ++ releases 1 ∧
        ∃! kind, (p.replies image c s).HasKind image c "localhost/app:1" 1 calls report kind := by
  intro hex about p c s
  have hkind : (p.validate "localhost/app:1" c s).1.toOption.map (ReportKind.of · true) =
      some .evaluated := by decide +kernel
  cases hok : (p.validate "localhost/app:1" c s).1 with
  | error err =>
    rw [hok] at hkind
    cases hkind
  | ok report =>
    rw [hok] at hkind
    exact ⟨report, rfl, Option.some.inj hkind,
      validate_report p "localhost/app:1" c s report hok⟩

end Pipeline
end ImagePolicy
