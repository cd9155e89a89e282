/-
# What has no influence on the policy

Two runs about one image are compared (`Comparable`): who is asked replies the same, apart from
what verifies signatures. The signatures of the image itself go into the report and nowhere else,
and attestations that do not count go at most into the check of the shape and, where the image has
no signatures of its own, into the signatures that are reported. In both cases the runs make the
same calls and end alike, so what the policy says, and at what time, cannot be moved this way.

A run goes by the replies (`Pipeline.run_goes`), so what is compared are the steps and the
verdicts of two lists of replies. That evaluators reply the same is the one thing that has to be
followed along a run: it needs that nothing but the staged document reaches them.

Key definitions: `SameStaging`, `Evaluator.Faithful`, `Comparable`, `Agree`, `Alike`,
`OtherSignatures`, `MoreAttestations`, `Report.EqButSignature`, `Report.EqButShape`.
Key theorems: `Pipeline.askEvaluators_congr`, `Comparable.policy_eq`, `Replies.steps_congr`,
`Replies.agree_of_signatures`, `Replies.agree_of_inserted`, `Pipeline.validate_alike`.
-/
import ImagePolicy.Proofs.Pipeline.Calls

namespace ImagePolicy

/-! ### Runs that can be compared -/

/-- The input is staged alike: it fails in the same way, or the same document stands at the same
place. -/
inductive SameStaging : Except VerificationError (StagedInput × Disk) →
    Except VerificationError (StagedInput × Disk) → Prop
  | failed (err : VerificationError) : SameStaging (.error err) (.error err)
  | staged (input : StagedInput) {d₁ d₂ : Disk} :
      d₁.content? input.path = d₂.content? input.path →
      SameStaging (.ok (input, d₁)) (.ok (input, d₂))

/-- What an evaluator replies, and the document that it leaves at its input, depends on its turn,
the input with the document there, and the context, and on nothing else. -/
def Evaluator.Faithful (e : Evaluator) : Prop :=
  ∀ turn input c t₁ t₂ d₁ d₂, d₁.content? input = d₂.content? input →
    (e.evaluate turn input c t₁ d₁).1 = (e.evaluate turn input c t₂ d₂).1 ∧
      (e.evaluate turn input c t₁ d₁).2.2.content? input =
        (e.evaluate turn input c t₂ d₂).2.2.content? input

/-- Two runs in which everybody replies the same, apart from what verifies signatures. -/
structure Comparable (image : ImageReference) (c : PolicyContext) (p₁ p₂ : Pipeline)
    (s₁ s₂ : Session) : Prop where
  probe : (p₁.replies image c s₁).probe = (p₂.replies image c s₂).probe
  digest : (p₁.replies image c s₁).digest = (p₂.replies image c s₂).digest
  staging : ∀ as, SameStaging (p₁.writer as s₁.disk) (p₂.writer as s₂.disk)
  evaluators : p₁.evaluators = p₂.evaluators
  faithful : ∀ e ∈ p₁.evaluators, e.Faithful
  turns : s₁.turns = s₂.turns

/-- A pipeline of collaborators that reply the same whatever they are asked. -/
def Pipeline.replying (digest : String) (signatures : Reply (List Signature))
    (attestations : Reply (List Attestation)) (groups : List CheckGroup) : Pipeline where
  verifier := {
    probe := fun _ t => (.ok (), t)
    digest := fun _ t => (.ok digest, t)
    imageSignatures := fun _ _ t => (signatures, t)
    attestations := fun _ _ t => (attestations, t) }
  evaluators := [{ evaluate := fun _ _ _ t d => (.ok groups, t, d) }]
  writer := jsonWriter

/-- Such pipelines can be compared, whatever is replied about signatures. -/
theorem Pipeline.replying_comparable {digest : String} {groups : List CheckGroup}
    {signatures₁ signatures₂ : Reply (List Signature)}
    {attestations₁ attestations₂ : Reply (List Attestation)} (image : ImageReference)
    (c : PolicyContext) (s : Session) : Comparable image c
      (replying digest signatures₁ attestations₁ groups)
      (replying digest signatures₂ attestations₂ groups) s s where
  probe := rfl
  digest := rfl
  staging := fun as => .staged _ rfl
  evaluators := rfl
  faithful := by
    intro e he turn input c t₁ t₂ d₁ d₂ hdoc
    obtain rfl := List.mem_singleton.mp he
    exact ⟨rfl, hdoc⟩
  turns := rfl

/-! ### What the evaluators reply -/

namespace Pipeline

/-- Evaluators cannot tell two sessions apart that have the same document at the input. -/
theorem askEvaluators_congr {input : Path} {c : PolicyContext} : ∀ (index : Nat)
    (es : List Evaluator) (s₁ s₂ : Session), (∀ e ∈ es, e.Faithful) →
    s₁.disk.content? input = s₂.disk.content? input → s₁.turns = s₂.turns →
    askEvaluators input c index es s₁ = askEvaluators input c index es s₂
  | _, [], _, _, _, _, _ => rfl
  | index, e :: es, s₁, s₂, hf, hdoc, hturns => by
    obtain ⟨hfirst, hrest⟩ := List.forall_mem_cons.mp hf
    obtain ⟨hreply, hleft⟩ :=
      hfirst (s₁.turns index) input c s₁.token s₂.token s₁.disk s₂.disk hdoc
    have hr : (s₁.evaluate index e input c).1 = (s₂.evaluate index e input c).1 := by
      simp only [Session.evaluate, Session.note, ← hturns]
      exact hreply
    -- the next evaluator finds what this one leaves
    have hd : (s₁.evaluate index e input c).2.disk.content? input =
        (s₂.evaluate index e input c).2.disk.content? input := by
      simp only [Session.evaluate, Session.note, ← hturns]
      exact hleft
    have ht : (s₁.evaluate index e input c).2.turns = (s₂.evaluate index e input c).2.turns := by
      simp only [Session.evaluate, Session.note, hturns]
    rw [askEvaluators, askEvaluators, hdoc, hr, askEvaluators_congr (index + 1) es _ _ hrest hd ht]

/-- What is asked before the policy leaves the disk and the evaluators as they are. -/
theorem replies_policy (p : Pipeline) (image : ImageReference) (c : PolicyContext) (s : Session) :
    ∃ next : Session,
      (p.replies image c s).evaluations =
        p.evaluations ((p.replies image c s).governed c) next (p.replies image c s).counted ∧
      (p.replies image c s).staging = p.writer (p.replies image c s).counted next.disk ∧
      next.disk = s.disk ∧ next.turns = s.turns :=
  ⟨_, rfl, rfl, rfl, rfl⟩

theorem evaluations_congr {p₁ p₂ : Pipeline} {c : PolicyContext} {s₁ s₂ : Session}
    {as : List Attestation} (hs : SameStaging (p₁.writer as s₁.disk) (p₂.writer as s₂.disk))
    (he : p₁.evaluators = p₂.evaluators) (hf : ∀ e ∈ p₁.evaluators, e.Faithful)
    (ht : s₁.turns = s₂.turns) : p₁.evaluations c s₁ as = p₂.evaluations c s₂ as := by
  unfold evaluations
  generalize p₁.writer as s₁.disk = staging₁ at hs
  generalize p₂.writer as s₂.disk = staging₂ at hs
  cases hs with
  | failed err => rfl
  | staged input hdoc =>
    simp only [← he]
    exact askEvaluators_congr 0 p₁.evaluators _ _ hf hdoc ht

end Pipeline

theorem policyOutcome_congr {c : PolicyContext} {counted : List Attestation}
    {staging₁ staging₂ : Except VerificationError (StagedInput × Disk)}
    {evaluations : List (Call × Reply (List CheckGroup))} (h : SameStaging staging₁ staging₂) :
    policyOutcome c counted staging₁ evaluations =
      policyOutcome c counted staging₂ evaluations := by
  cases h <;> rfl

/-- **Where the same attestations count, the policy is the same**: they are staged alike, the
evaluators are asked the same and reply the same. -/
theorem Comparable.policy_eq {image : ImageReference} {c : PolicyContext} {p₁ p₂ : Pipeline}
    {s₁ s₂ : Session} (h : Comparable image c p₁ p₂ s₁ s₂)
    (hc : (p₁.replies image c s₁).counted = (p₂.replies image c s₂).counted) :
    SameStaging (p₁.replies image c s₁).staging (p₂.replies image c s₂).staging ∧
      (p₁.replies image c s₁).evaluations = (p₂.replies image c s₂).evaluations := by
  obtain ⟨n₁, he₁, hs₁, hdisk₁, hturns₁⟩ := p₁.replies_policy image c s₁
  obtain ⟨n₂, he₂, hs₂, hdisk₂, hturns₂⟩ := p₂.replies_policy image c s₂
  have hstaging : ∀ as, SameStaging (p₁.writer as n₁.disk) (p₂.writer as n₂.disk) := fun as => by
    rw [hdisk₁, hdisk₂]
    exact h.staging as
  have hturns : n₁.turns = n₂.turns := by rw [hturns₁, hturns₂, h.turns]
  constructor
  · rw [hs₁, hs₂, ← hc]
    exact hstaging _
  · rw [he₁, he₂]
    unfold Replies.governed
    rw [← hc]
    exact Pipeline.evaluations_congr (hstaging _) h.evaluators h.faithful hturns

/-! ### Verdicts that agree -/

theorem signatureGate_of_ne {reply : Reply (List Signature)} {next : Verdict}
    (h : reply ≠ .error .cancelled) : signatureGate reply next = next := by
  unfold signatureGate
  split
  · exact absurd rfl h
  · rfl

/-- Runs end alike: in the same error, or in reports that stand in a relation. -/
inductive Agree (R : Report → Report → Prop) : Verdict → Verdict → Prop
  | error (err : VerificationError) : Agree R (.error err) (.error err)
  | ok {a b : Report} : R a b → Agree R (.ok a) (.ok b)

namespace Agree

variable {R : Report → Report → Prop} {v₁ v₂ : Verdict}

theorem probeGate {url : String} {reply : Reply Unit} (hR : ∀ a, R a a) (h : Agree R v₁ v₂) :
    Agree R (probeGate url reply v₁) (probeGate url reply v₂) := by
  rcases reply with err | ⟨⟩
  · cases err with
    | cancelled => exact .error _
    | failed text => exact .ok (hR _)
    | io text => exact .ok (hR _)
  · exact h

theorem digestGate {image : ImageReference} {reply : Reply String} (h : Agree R v₁ v₂) :
    Agree R (digestGate image reply v₁) (digestGate image reply v₂) := by
  rcases reply with err | digest
  · exact .error _
  · simp only [ImagePolicy.digestGate]
    cases image.resolve digest with
    | error fault => exact .error _
    | ok resolved => exact h

theorem signatureGate {reply : Reply (List Signature)} (h : Agree R v₁ v₂) :
    Agree R (signatureGate reply v₁) (signatureGate reply v₂) := by
  rcases reply with (_ | _ | _) | _
  · exact h
  · exact .error _
  · exact h
  · exact h

theorem attestationGate {a b : Report} {reply : Reply (List Attestation)}
    {next₁ next₂ : List Attestation → Verdict}
    (hR : ∀ status, R { a with attestationSignature := status }
      { b with attestationSignature := status })
    (h : ∀ as, Agree R (next₁ as) (next₂ as)) :
    Agree R (attestationGate a reply next₁) (attestationGate b reply next₂) := by
  rcases reply with err | as
  · cases err with
    | cancelled => exact .error _
    | failed text => exact .ok (hR _)
    | io text => exact .ok (hR _)
  · exact h as

theorem map {α : Type} {f g : α → Report} (hR : ∀ x, R (f x) (g x))
    (outcome : Except VerificationError α) : Agree R (outcome.map f) (outcome.map g) := by
  cases outcome with
  | error err => exact .error err
  | ok x => exact .ok (hR x)

end Agree

/-- Two runs make the same calls and end alike. -/
structure Alike (R : Report → Report → Prop) (s₁ s₂ : Session) (out₁ out₂ : Verdict × Session) :
    Prop where
  calls : ∃ calls, out₁.2.calls = s₁.calls ++ calls ∧ out₂.2.calls = s₂.calls ++ calls
  verdicts : Agree R out₁.1 out₂.1

/-- Only one list of calls goes through steps. -/
theorem Through.eq {steps : List (Call × Prop)} {calls others : List Call}
    (h : Through steps calls) (ho : Through steps others) : calls = others := by
  induction h generalizing others with
  | done => cases ho; rfl
  | goOn holds _ ih =>
    cases ho with
    | goOn _ hrest => rw [ih hrest]
    | stop hnot => exact absurd holds hnot
  | stop hnot =>
    cases ho with
    | goOn holds _ => exact absurd holds hnot
    | stop _ => rfl

theorem Goes.alike {R : Report → Report → Prop} {s₁ s₂ : Session} {steps : List (Call × Prop)}
    {v₁ v₂ : Verdict} {out₁ out₂ : Verdict × Session} (h₁ : Goes s₁ steps v₁ out₁)
    (h₂ : Goes s₂ steps v₂ out₂) (hv : Agree R v₁ v₂) : Alike R s₁ s₂ out₁ out₂ := by
  obtain ⟨calls, hthrough₁, hcalls₁⟩ := h₁.calls_eq
  obtain ⟨others, hthrough₂, hcalls₂⟩ := h₂.calls_eq
  refine ⟨⟨calls, hcalls₁, ?_⟩, ?_⟩
  · rw [hthrough₁.eq hthrough₂]
    exact hcalls₂
  · rw [h₁.verdict_eq, h₂.verdict_eq]
    exact hv

/-! ### Replies that come to the same -/

/-- The runs differ in the signatures of the image, and neither is cancelled there. -/
structure OtherSignatures (r₁ r₂ : Replies) : Prop where
  attestations : r₁.attestations = r₂.attestations
  first : r₁.imageSignatures ≠ .error .cancelled
  second : r₂.imageSignatures ≠ .error .cancelled

/-- The second run has more attestations, which do not count. -/
structure MoreAttestations (new : List Attestation) (r₁ r₂ : Replies) : Prop where
  imageSignatures : r₁.imageSignatures = r₂.imageSignatures
  inserted : ∃ as bs, r₁.attestations = .ok as ∧ r₂.attestations = .ok bs ∧ Inserted new as bs
  irrelevant : ∀ a ∈ new, a.Irrelevant r₁.hex

/-- Reports are equal but for what they tell of the image's signatures. -/
def Report.EqButSignature (a b : Report) : Prop :=
  b = { a with imageSignature := b.imageSignature, signatures := b.signatures }

/-- Reports are equal but for the check of the shape, which new attestations may fail, and for the
signatures, if the image has none that verify. -/
structure Report.EqButShape (new : List Attestation) (reply : Reply (List Signature))
    (a b : Report) : Prop where
  others : b = { a with attestationShape := b.attestationShape, signatures := b.signatures }
  shape : b.attestationShape.map StageStatus.passed ≠ a.attestationShape.map StageStatus.passed →
    ∃ x ∈ new, x.fault? ≠ none
  signatures : b.signatures ≠ a.signatures → ∃ err, reply = .error err

namespace Report

variable {new as bs : List Attestation} {reply : Reply (List Signature)}

theorem EqButShape.refl (a : Report) : EqButShape new reply a a :=
  ⟨rfl, fun h => absurd rfl h, fun h => absurd rfl h⟩

/-- The check of the shape passes with more attestations if it did before and these are
well-formed. -/
theorem shapeStatus_passed_of_inserted (hins : Inserted new as bs)
    (hok : ∀ a ∈ new, a.fault? = none) :
    (shapeStatus (partitionByShape bs).2).passed =
      (shapeStatus (partitionByShape as).2).passed := by
  have hpassed : ∀ faults, (shapeStatus faults).passed = faults.isEmpty := by
    intro faults
    cases faults <;> rfl
  rw [hpassed, hpassed, Bool.eq_iff_iff, List.isEmpty_iff, List.isEmpty_iff, faults_eq_nil_iff,
    faults_eq_nil_iff, hins.forall_mem_iff]
  exact and_iff_left hok

/-- More attestations in what is judged show in the shape and the signatures only. -/
theorem eqButShape_judged {report : Report} {c : PolicyContext} {checks : List CheckGroup}
    (hins : Inserted new as bs) :
    EqButShape new reply (report.judged c reply as checks) (report.judged c reply bs checks) where
  others := rfl
  shape := by
    intro hne
    by_cases hok : ∀ a ∈ new, a.fault? = none
    · exact absurd (congrArg some (shapeStatus_passed_of_inserted hins hok)) hne
    · simpa using hok
  signatures := by
    intro hne
    cases reply with
    | error err => exact ⟨err, rfl⟩
    | ok signatures => exact absurd rfl hne

end Report

namespace Replies

variable {r₁ r₂ : Replies} {image : ImageReference} {c : PolicyContext}

theorem hex_congr (hdigest : r₁.digest = r₂.digest) : r₁.hex = r₂.hex := by
  rw [hex, hdigest, ← hex]

theorem resolved_congr (hdigest : r₁.digest = r₂.digest) :
    r₁.resolved image = r₂.resolved image := by
  rw [resolved, hdigest, ← resolved]

/-- Runs have the same steps if the same attestations count and the policy is the same. -/
theorem steps_congr (hprobe : r₁.probe = r₂.probe) (hdigest : r₁.digest = r₂.digest)
    (hsignatures : r₁.imageSignatures ≠ .error .cancelled ↔ r₂.imageSignatures ≠ .error .cancelled)
    (hcounted : r₁.counted = r₂.counted) (hstaging : SameStaging r₁.staging r₂.staging)
    (hevaluations : r₁.evaluations = r₂.evaluations) : r₁.steps image c = r₂.steps image c := by
  have hstaged : (∃ input, r₁.staging = .ok input) ↔ ∃ input, r₂.staging = .ok input := by
    generalize r₁.staging = staging₁ at hstaging
    generalize r₂.staging = staging₂ at hstaging
    cases hstaging <;> simp
  have hattested : (∃ as, r₁.attestations = .ok as ∧
        ∃ a ∈ as, a.fault? = none ∧ r₁.hex ∈ a.subjectDigests) ↔
      ∃ as, r₂.attestations = .ok as ∧
        ∃ a ∈ as, a.fault? = none ∧ r₂.hex ∈ a.subjectDigests := by
    rw [attestations_hold_iff, attestations_hold_iff, hcounted]
  unfold steps
  rw [propext hattested, propext hsignatures, propext hstaged, hprobe, hdigest, hex_congr hdigest,
    resolved_congr hdigest, hcounted, hevaluations]

/-- The outcome goes by the attestations that count and the policy. -/
theorem outcome_congr (hcounted : r₁.counted = r₂.counted)
    (hstaging : SameStaging r₁.staging r₂.staging)
    (hevaluations : r₁.evaluations = r₂.evaluations) : r₁.outcome c = r₂.outcome c := by
  unfold outcome governed
  rw [hcounted, hevaluations, policyOutcome_congr hstaging]

/-- Whatever the signatures of the image are, a run that is not cancelled ends alike. -/
theorem agree_of_signatures {url : String} (hprobe : r₁.probe = r₂.probe)
    (hdigest : r₁.digest = r₂.digest) (h : OtherSignatures r₁ r₂)
    (hcounted : r₁.counted = r₂.counted) (houtcome : r₁.outcome c = r₂.outcome c) :
    Agree Report.EqButSignature (r₁.verdict image c url) (r₂.verdict image c url) := by
  have hresolved : r₁.resolved image = r₂.resolved image := resolved_congr hdigest
  unfold verdict
  rw [signatureGate_of_ne h.first, signatureGate_of_ne h.second, ← hprobe, ← hdigest,
    ← h.attestations, ← houtcome]
  refine .probeGate (fun a => rfl) (.digestGate (.attestationGate ?_ ?_))
  · intro status
    simp only [Report.EqButSignature, begun, hresolved]
  · intro as
    refine .map (fun checks => ?_) _
    simp only [Report.EqButSignature, Report.judged, begun, hresolved, governed, hcounted]

/-- Whatever does not count, a run ends alike with more of it. -/
theorem agree_of_inserted {url : String} {new : List Attestation} (hprobe : r₁.probe = r₂.probe)
    (hdigest : r₁.digest = r₂.digest) (h : MoreAttestations new r₁ r₂)
    (hcounted : r₁.counted = r₂.counted) (houtcome : r₁.outcome c = r₂.outcome c) :
    Agree (Report.EqButShape new r₁.imageSignatures) (r₁.verdict image c url)
      (r₂.verdict image c url) := by
  obtain ⟨as, bs, has, hbs, hins⟩ := h.inserted
  have hbegun : r₁.begun image = r₂.begun image := by
    rw [begun, begun, resolved_congr hdigest, h.imageSignatures]
  have hgoverned : r₁.governed c = r₂.governed c := by rw [governed, governed, hcounted]
  unfold verdict
  rw [← hprobe, ← hdigest, ← h.imageSignatures, ← houtcome, has, hbs, ← hbegun, ← hgoverned]
  refine .probeGate Report.EqButShape.refl (.digestGate (.signatureGate ?_))
  exact .map (fun checks => Report.eqButShape_judged hins) _

end Replies

/-! ### Two runs -/

namespace Pipeline

/-- A run that is alike without the release is alike with it. -/
theorem validate_alike_of_run {R : Report → Report → Prop} {p₁ p₂ : Pipeline} {url : String}
    {c : PolicyContext} {s₁ s₂ : Session} (he : p₁.evaluators.length = p₂.evaluators.length)
    (h : Alike R s₁ s₂ (p₁.run url c s₁) (p₂.run url c s₂)) :
    Alike R s₁ s₂ (p₁.validate url c s₁) (p₂.validate url c s₂) := by
  obtain ⟨⟨calls, h₁, h₂⟩, hv⟩ := h
  refine ⟨⟨calls ++ releases p₁.evaluators.length, ?_, ?_⟩, hv⟩
  · rw [← List.append_assoc, ← h₁]
    rfl
  · rw [he, ← List.append_assoc, ← h₂]
    rfl

end Pipeline

namespace Comparable

variable {image : ImageReference} {c : PolicyContext} {p₁ p₂ : Pipeline} {s₁ s₂ : Session}

/-- All that is left to a run is which attestations count. -/
theorem alike {R : Report → Report → Prop} {url : String}
    (hparse : ImageReference.parse url = .ok image) (h : Comparable image c p₁ p₂ s₁ s₂)
    (hsignatures : (p₁.replies image c s₁).imageSignatures ≠ .error .cancelled ↔
      (p₂.replies image c s₂).imageSignatures ≠ .error .cancelled)
    (hcounted : (p₁.replies image c s₁).counted = (p₂.replies image c s₂).counted)
    (hagree : (p₁.replies image c s₁).outcome c = (p₂.replies image c s₂).outcome c →
      Agree R ((p₁.replies image c s₁).verdict image c url)
        ((p₂.replies image c s₂).verdict image c url)) :
    Alike R s₁ s₂ (p₁.validate url c s₁) (p₂.validate url c s₂) := by
  obtain ⟨hstaging, hevaluations⟩ := h.policy_eq hcounted
  have hsteps : (p₁.replies image c s₁).steps image c = (p₂.replies image c s₂).steps image c :=
    Replies.steps_congr h.probe h.digest hsignatures hcounted hstaging hevaluations
  have houtcome := Replies.outcome_congr (c := c) hcounted hstaging hevaluations
  have h₁ : Goes s₁ ((p₂.replies image c s₂).steps image c) _ (p₁.run url c s₁) :=
    hsteps ▸ Pipeline.run_goes hparse
  exact Pipeline.validate_alike_of_run (congrArg List.length h.evaluators)
    (h₁.alike (Pipeline.run_goes hparse) (hagree houtcome))

theorem counted_of_signatures (h : Comparable image c p₁ p₂ s₁ s₂)
    (hother : OtherSignatures (p₁.replies image c s₁) (p₂.replies image c s₂)) :
    (p₁.replies image c s₁).counted = (p₂.replies image c s₂).counted := by
  rw [Replies.counted, Replies.hex_congr h.digest, hother.attestations, ← Replies.counted]

theorem counted_of_inserted {new : List Attestation} (h : Comparable image c p₁ p₂ s₁ s₂)
    (hmore : MoreAttestations new (p₁.replies image c s₁) (p₂.replies image c s₂)) :
    (p₁.replies image c s₁).counted = (p₂.replies image c s₂).counted := by
  obtain ⟨as, bs, has, hbs, hins⟩ := hmore.inserted
  rw [Replies.counted, Replies.counted, ← Replies.hex_congr h.digest, has, hbs]
  exact counting_eq_of_inserted hins hmore.irrelevant

end Comparable

namespace Pipeline

/-- **The image's own signatures and attestations that do not count have no influence on the
policy.** Of two runs that can be compared, which differ in the image's signatures only, or in
attestations that do not count, both make the same calls, on the same document at the same time,
and both end in the same error or in reports that are equal, but for what they tell of the image's
signatures in the one case, and of the shape of the statements in the other. -/
theorem validate_alike (p₁ p₂ : Pipeline) (url : String) (c : PolicyContext) (s₁ s₂ : Session) :
    (∀ fault, ImageReference.parse url = .error fault →
      p₁.evaluators.length = p₂.evaluators.length →
      Alike Eq s₁ s₂ (p₁.validate url c s₁) (p₂.validate url c s₂)) ∧
    ∀ image, ImageReference.parse url = .ok image → Comparable image c p₁ p₂ s₁ s₂ →
      (OtherSignatures (p₁.replies image c s₁) (p₂.replies image c s₂) →
        Alike Report.EqButSignature s₁ s₂ (p₁.validate url c s₁) (p₂.validate url c s₂)) ∧
      ∀ new, MoreAttestations new (p₁.replies image c s₁) (p₂.replies image c s₂) →
        Alike (Report.EqButShape new (p₁.replies image c s₁).imageSignatures) s₁ s₂
          (p₁.validate url c s₁) (p₂.validate url c s₂) ∧
        (p₁.replies image c s₁).counted = (p₂.replies image c s₂).counted ∧
        SameStaging (p₁.replies image c s₁).staging (p₂.replies image c s₂).staging := by
  constructor
  · intro fault hparse he
    refine validate_alike_of_run he ?_
    rw [run_of_malformed hparse, run_of_malformed hparse]
    exact ⟨⟨[], (List.append_nil _).symm, (List.append_nil _).symm⟩, .error _⟩
  · intro image hparse h
    constructor
    · intro hother
      have hcounted := h.counted_of_signatures hother
      exact h.alike hparse (iff_of_true hother.first hother.second) hcounted fun houtcome =>
        Replies.agree_of_signatures h.probe h.digest hother hcounted houtcome
    · intro new hmore
      have hcounted := h.counted_of_inserted hmore
      refine ⟨?_, hcounted, (h.policy_eq hcounted).1⟩
      exact h.alike hparse (by rw [hmore.imageSignatures]) hcounted fun houtcome =>
        Replies.agree_of_inserted h.probe h.digest hmore hcounted houtcome

/-- An image with an attestation that counts is alike to the same image without signatures that
verify, and with one more statement, which is no object. -/
theorem validate_alike_replying :
    let hex := String.ofList (List.replicate 64 'a')
    let about : Attestation := {
      statement := .object [
        ("_type", .text "https://in-toto.io/Statement/v1"), ("predicate", .object []),
        ("predicateType", .text "https://slsa.dev/provenance/v1"),
        ("subject", .list [.object [("digest", .object [("sha256", .text hex)])]])] }
    let pipeline (signatures : Reply (List Signature)) (as : List Attestation) : Pipeline :=
      replying ("sha256:" ++ hex) signatures (.ok as) [{ successes := [{ message := "built" }] }]
    let c : PolicyContext := ⟨"key", none, [], [], [], [], [], .now ⟨0, 0⟩⟩
    let s := Session.initial ⟨[], 0, []⟩
    let url := "localhost/app:1"
    let image : ImageReference := ⟨"localhost", "app", some "1", none⟩
    let signed := pipeline (.ok []) [about]
    let unsigned := pipeline (.error (.failed "unsigned")) [about]
    let more := pipeline (.ok []) [⟨.null, []⟩, about]
    ImageReference.parse url = .ok image ∧ (signed.replies image c s).counted.isEmpty = false ∧
      OtherSignatures (signed.replies image c s) (unsigned.replies image c s) ∧
      MoreAttestations [⟨.null, []⟩] (signed.replies image c s) (more.replies image c s) ∧
      Alike Report.EqButSignature s s (signed.validate url c s) (unsigned.validate url c s) ∧
      Alike (Report.EqButShape [⟨.null, []⟩] (.ok [])) s s (signed.validate url c s)
        (more.validate url c s) := by
  intro hex about pipeline c s url image signed unsigned more
  have hparse : ImageReference.parse "localhost/app:1" = .ok image := by rfl
  have hother : OtherSignatures (signed.replies image c s) (unsigned.replies image c s) :=
    ⟨rfl, nofun, nofun⟩
  have hinserted : Inserted [⟨.null, []⟩] [about] [⟨.null, []⟩, about] := .insert _ (.keep _ .nil)
  have hnull : ∀ a ∈ [(⟨.null, []⟩ : Attestation)],
      a.Irrelevant (signed.replies image c s).hex := by
    intro a ha
    obtain rfl := List.mem_singleton.mp ha
    exact Or.inl (by decide)
  have hmore : MoreAttestations [⟨.null, []⟩] (signed.replies image c s)
      (more.replies image c s) := ⟨rfl, ⟨_, _, rfl, rfl, hinserted⟩, hnull⟩
  refine ⟨hparse, by decide +kernel, hother, hmore, ?_, ?_⟩
  · exact ((validate_alike signed unsigned url c s s).2 image hparse
      (replying_comparable image c s)).1 hother
  · exact (((validate_alike signed more url c s s).2 image hparse
      (replying_comparable image c s)).2 _ hmore).1

end Pipeline
end ImagePolicy
