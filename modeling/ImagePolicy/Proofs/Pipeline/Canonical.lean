/-
# The image of a report, verified again

A report on an image within reach names it by its digest, and this name is a fixed point: it is read
back as the reference that the collaborators were asked about, and resolving that by the same digest
leaves it as it is. So a second run about the image of a report, with the same replies, comes to
the same report. The tag, the digest, the missing registry or the blanks that the first text had
are all gone by then.

Replies are the same if everything that the first run heard is heard again. What a run did not
ask for may be different.

Key definitions: `Replies.Echoed`, `Pipeline.GoesBy`.
Key theorems: `Replies.Echoed.verdict`, `Replies.Run.accessible`, `Pipeline.validate_again`.
-/
import ImagePolicy.Proofs.Pipeline.Reports
import ImagePolicy.Proofs.Reference.RoundTrip

namespace ImagePolicy

theorem reached_cons (g : Gate) (gates : List Gate) : ∃ more, reached (g :: gates) = g :: more := by
  rw [reached]
  cases g.ending with
  | some v => exact ⟨[], rfl⟩
  | none => exact ⟨reached gates, rfl⟩

namespace ImageReference

variable {r : ImageReference} {digest : String}

/-- A reference that was read and resolved is read back as it is written. -/
theorem parse_pinned {url : String} (h : parse url = .ok r) (hd : ∃ hex, IsDigest digest hex) :
    parse (r.pinned digest).render = .ok (r.pinned digest) := by
  have hwell := wellFormed_attempt (wellFormed_of_parse h) digest
  rw [attempt_of_digest hd] at hwell
  exact hwell.parse_render

end ImageReference

/-- Behind attestations that verify, what is said next decides the report. -/
theorem attestationGate_imp {begun report : Report} {reply : Reply (List Attestation)}
    {next next' : List Attestation → Verdict}
    (h : ∀ as, next as = .ok report → next' as = .ok report)
    (hok : attestationGate begun reply next = .ok report) :
    attestationGate begun reply next' = .ok report := by
  rcases reply with (_ | _ | _) | as
  · exact hok
  · exact hok
  · exact hok
  · exact h as hok

namespace Replies

/-- The verdict on an image that is resolved is that of its attestations. -/
theorem verdict_of_resolved {r : Replies} {image : ImageReference} {c : PolicyContext}
    {url digest : String} (hprobe : r.probe = .ok ()) (hdigest : r.digest = .ok digest)
    (hd : ∃ hex, IsDigest digest hex) (hsignatures : r.imageSignatures ≠ .error .cancelled) :
    r.verdict image c url = attestationGate (r.begun image) r.attestations fun as =>
      (r.outcome c).map ((r.begun image).judged (r.governed c) r.imageSignatures as) := by
  have hresolve : image.resolve digest = .ok (image.pinned digest) :=
    ImageReference.resolve_eq_ok_iff.mpr ⟨hd, rfl⟩
  rw [verdict, hprobe, hdigest, signatureGate_of_ne hsignatures]
  simp only [probeGate, ImagePolicy.digestGate, hresolve]

/-- What a run heard is replied again. The writer and the evaluators were heard only if an
attestation counts. -/
structure Echoed (first again : Replies) : Prop where
  probe : again.probe = first.probe
  digest : again.digest = first.digest
  imageSignatures : again.imageSignatures = first.imageSignatures
  attestations : again.attestations = first.attestations
  staging : first.counted ≠ [] → (∃ input, first.staging = .ok input) →
    ∃ input, again.staging = .ok input
  evaluations : first.counted ≠ [] →
    again.evaluations.map Prod.snd = first.evaluations.map Prod.snd

namespace Echoed

variable {first again : Replies} {image : ImageReference} {c : PolicyContext} {url : String}
  (h : Echoed first again)
include h

theorem hex : again.hex = first.hex := by
  rw [Replies.hex, h.digest, Replies.hex]

theorem counted : again.counted = first.counted := by
  rw [Replies.counted, h.hex, h.attestations, Replies.counted]

theorem governed : again.governed c = first.governed c := by
  rw [Replies.governed, h.counted, Replies.governed]

/-- The image by its digest is resolved to itself. -/
theorem resolved : again.resolved (first.resolved image) = first.resolved image := by
  rw [Replies.resolved, h.digest]
  rfl

theorem begun : again.begun (first.resolved image) = first.begun image := by
  rw [Replies.begun, h.resolved, h.imageSignatures, Replies.begun]

/-- The policy has the same to say, if it has. -/
theorem outcome {checks : List CheckGroup} (hout : first.outcome c = .ok checks) :
    again.outcome c = .ok checks := by
  unfold Replies.outcome policyOutcome at hout ⊢
  rw [h.governed, h.counted]
  by_cases hnone : first.counted.isEmpty
  · rw [if_pos hnone] at hout ⊢
    exact hout
  · have hsome : first.counted ≠ [] := fun heq => hnone (List.isEmpty_iff.mpr heq)
    rw [if_neg hnone] at hout ⊢
    rw [h.evaluations hsome]
    cases hstaged : first.staging with
    | error err =>
      rw [hstaged] at hout
      cases hout
    | ok input =>
      obtain ⟨input', hstaged'⟩ := h.staging hsome ⟨input, hstaged⟩
      rw [hstaged] at hout
      rw [hstaged']
      exact hout

/-- **The same replies make the same report**, if the image they are about is the one that the
first of them resolved. -/
theorem verdict {report : Report} {url' digest : String} (hprobe : first.probe = .ok ())
    (hdigest : first.digest = .ok digest) (hd : ∃ hex, IsDigest digest hex)
    (hsignatures : first.imageSignatures ≠ .error .cancelled)
    (hok : first.verdict image c url = .ok report) :
    again.verdict (first.resolved image) c url' = .ok report := by
  rw [verdict_of_resolved hprobe hdigest hd hsignatures] at hok
  rw [verdict_of_resolved (h.probe.trans hprobe) (h.digest.trans hdigest) hd
    (h.imageSignatures.symm ▸ hsignatures), h.begun, h.attestations]
  refine attestationGate_imp (fun as hjudged => ?_) hok
  rw [h.governed, h.imageSignatures]
  cases hout : first.outcome c with
  | error err =>
    rw [hout] at hjudged
    cases hjudged
  | ok checks =>
    rw [hout] at hjudged
    rw [h.outcome hout]
    exact hjudged

end Echoed

namespace Run

variable {r : Replies} {image : ImageReference} {c : PolicyContext} {url : String}
  {calls : List Call} {verdict : Verdict}

/-- A report on an image within reach names it by the digest that was replied, and it comes after
the question for the attestations. -/
theorem accessible (h : r.Run image c url calls verdict) {report : Report}
    (hok : verdict = .ok report)
    (hpassed : report.imageAccessible.map StageStatus.passed = some true) :
    report.imageUrl = (r.resolved image).render ∧
      .attestations (r.resolved image) c.publicKey c.rekorUrl ∈ calls := by
  cases h.reported hok with
  | unreachable => cases hpassed
  | unattested hcall => exact ⟨rfl, hcall⟩
  | unmatched hcall => exact ⟨rfl, hcall⟩
  | evaluated hcomplete => exact ⟨rfl, (h.before_staging hcomplete.asked).1⟩

/-- The first four calls of a run that asks for attestations. -/
theorem verifier_calls (h : r.Run image c url calls verdict)
    (hcall : .attestations (r.resolved image) c.publicKey c.rekorUrl ∈ calls) :
    ∃ more, calls =
      [.probe image, .digest image, .imageSignatures (r.resolved image) c.publicKey c.rekorUrl,
        .attestations (r.resolved image) c.publicKey c.rekorUrl] ++ more := by
  obtain ⟨hprobe, hdigest, hsignatures, -⟩ := h.before_attestations hcall
  have hfront : ∀ g ∈ [r.accessGate image url, r.digestGate image url,
      r.signaturesGate image c url], g.ending = none := by
    simp only [List.forall_mem_cons, accessGate_open_iff, digestGate_open_iff,
      signaturesGate_open_iff]
    exact ⟨hprobe, hdigest, hsignatures, fun _ h => nomatch h⟩
  have hgates : r.gates image c url =
      [r.accessGate image url, r.digestGate image url, r.signaturesGate image c url] ++
        (r.attestationsGate image c url :: r.stagingGate ::
          r.evaluations.map (r.evaluationGate image url)) := rfl
  obtain ⟨more, hmore⟩ := reached_cons (r.attestationsGate image c url)
    (r.stagingGate :: r.evaluations.map (r.evaluationGate image url))
  refine ⟨more.map Gate.call, ?_⟩
  rw [h.calls_eq, hgates, reached_append_of_open hfront, hmore, List.map_append]
  rfl

end Run
end Replies

namespace Pipeline

/-- A run is about an image: it asks for its signatures and attestations by the resolved reference,
and of the attestations those count that have the hexadecimal digest among their subjects. -/
structure GoesBy (p : Pipeline) (url : String) (c : PolicyContext) (s : Session)
    (image resolved : ImageReference) (hex : String) : Prop where
  parsed : ImageReference.parse url = .ok image
  digestHex : resolved.digestHex = some hex
  counted : (p.replies image c s).counted =
    counting hex ((p.replies image c s).attestations.toOption.getD [])
  calls : ∃ more, (p.validate url c s).2.calls = s.calls ++
    [.probe image, .digest image, .imageSignatures resolved c.publicKey c.rekorUrl,
      .attestations resolved c.publicKey c.rekorUrl] ++ more

variable {p : Pipeline} {url : String} {image : ImageReference} {c : PolicyContext} {s : Session}

/-- A run whose report has the image within reach goes by the digest that it heard. -/
theorem goesBy_of_accessible {report : Report} {digest : String}
    (hparse : ImageReference.parse url = .ok image)
    (hdigest : (p.replies image c s).digest = .ok digest)
    (hd : IsDigest digest (p.replies image c s).hex)
    (hok : (p.validate url c s).1 = .ok report)
    (hpassed : report.imageAccessible.map StageStatus.passed = some true) :
    p.GoesBy url c s image ((p.replies image c s).resolved image) (p.replies image c s).hex := by
  obtain ⟨calls, hcalls, hrun⟩ := validate_run (p := p) (c := c) (s := s) hparse
  obtain ⟨-, hasked⟩ := hrun.accessible hok hpassed
  obtain ⟨more, hmore⟩ := hrun.verifier_calls hasked
  refine ⟨hparse, ?_, rfl, more ++ releases p.evaluators.length, ?_⟩
  · rw [Replies.resolved, hdigest]
    exact ImageReference.digestHex_pinned hd
  · rw [hcalls, hmore]
    simp only [List.append_assoc]

/-- **The image of a report is canonical.** Suppose that a run ends in a report that has the image
within reach. Then the report names a resolved reference, which is what the run asked for signatures
and attestations by. Any run about that name, with the same context and replies, ends in the same
report, asks by the same reference, and counts attestations by the same digest. -/
theorem validate_again {p again : Pipeline} {url : String} {c : PolicyContext} {s s' : Session}
    {report : Report} (hok : (p.validate url c s).1 = .ok report)
    (hpassed : report.imageAccessible.map StageStatus.passed = some true) :
    ∃ image resolved hex, p.GoesBy url c s image resolved hex ∧
      ImageReference.parse report.imageUrl = .ok resolved ∧
      ((p.replies image c s).Echoed (again.replies resolved c s') →
        (again.validate report.imageUrl c s').1 = .ok report ∧
          again.GoesBy report.imageUrl c s' resolved resolved hex) := by
  cases hparse : ImageReference.parse url with
  | error fault =>
    rw [validate_of_malformed hparse] at hok
    cases hok
  | ok image =>
    obtain ⟨calls, -, hrun⟩ := validate_run (p := p) (c := c) (s := s) hparse
    obtain ⟨himage, hasked⟩ := hrun.accessible hok hpassed
    obtain ⟨hprobe, ⟨digest, hdigest, hd⟩, hsignatures, -⟩ := hrun.before_attestations hasked
    have hback : ImageReference.parse report.imageUrl =
        .ok ((p.replies image c s).resolved image) := by
      rw [himage, Replies.resolved, hdigest]
      exact ImageReference.parse_pinned hparse ⟨_, hd⟩
    refine ⟨image, _, _, goesBy_of_accessible hparse hdigest hd hok hpassed, hback, ?_⟩
    intro hechoed
    have hagain : (again.validate report.imageUrl c s').1 = .ok report := by
      have hfirst : (p.replies image c s).verdict image c url = .ok report :=
        (run_goes hparse).verdict_eq.symm.trans hok
      exact (run_goes hback).verdict_eq.trans
        (hechoed.verdict hprobe hdigest ⟨_, hd⟩ hsignatures hfirst)
    refine ⟨hagain, ?_⟩
    have hgoes := goesBy_of_accessible hback (hechoed.digest.trans hdigest)
      (hechoed.hex.symm ▸ hd) hagain hpassed
    rw [hechoed.resolved, hechoed.hex] at hgoes
    exact hgoes

/-- Collaborators that always reply the same reply the same again. -/
theorem replying_echoed {digest : String} {signatures : Reply (List Signature)}
    {attestations : Reply (List Attestation)} {groups : List CheckGroup}
    (image image' : ImageReference) (c : PolicyContext) (s s' : Session) : Replies.Echoed
      ((replying digest signatures attestations groups).replies image c s)
      ((replying digest signatures attestations groups).replies image' c s') where
  probe := rfl
  digest := rfl
  imageSignatures := rfl
  attestations := rfl
  staging _ _ := ⟨_, rfl⟩
  evaluations _ := rfl

/-- A short name with a tag and blanks around it is verified, and the image of its report is
verified again in the session that this leaves. -/
theorem validate_again_short :
    let digest := "sha256:" ++ String.ofList (List.replicate 64 'a')
    let about : Attestation := {
      statement := .object [
        ("_type", .text "https://in-toto.io/Statement/v1"), ("predicate", .object []),
        ("predicateType", .text "https://slsa.dev/provenance/v1"),
        ("subject", .list [.object [("digest",
          .object [("sha256", .text (String.ofList (List.replicate 64 'a')))])]])] }
    let p := replying digest (.ok []) (.ok [about]) [{ successes := [{ message := "built" }] }]
    let c : PolicyContext := ⟨"key", none, [], [], [], [], [], .now ⟨0, 0⟩⟩
    let s := Session.initial ⟨[], 0, []⟩
    let s' := (p.validate " app:1 " c s).2
    ∃ report, (p.validate " app:1 " c s).1 = .ok report ∧
      report.imageUrl = "index.docker.io/library/app@" ++ digest ∧
      report.imageAccessible.map StageStatus.passed = some true ∧
      ∃ image resolved hex, p.GoesBy " app:1 " c s image resolved hex ∧
        (p.validate report.imageUrl c s').1 = .ok report ∧
        p.GoesBy report.imageUrl c s' resolved resolved hex := by
  intro digest about p c s s'
  have hseen : (p.validate " app:1 " c s).1.toOption.map
      (fun report => (report.imageUrl.toList, report.imageAccessible.map StageStatus.passed)) =
        some (("index.docker.io/library/app@" ++ digest).toList, some true) := by decide +kernel
  cases hok : (p.validate " app:1 " c s).1 with
  | error err =>
    rw [hok] at hseen
    cases hseen
  | ok report =>
    rw [hok] at hseen
    obtain ⟨himage, hpassed⟩ := Prod.ext_iff.mp (Option.some.inj hseen)
    obtain ⟨image, resolved, hex, hgoes, -, hagain⟩ :=
      @validate_again p p " app:1 " c s s' report hok hpassed
    exact ⟨report, rfl, String.toList_inj.mp himage, hpassed, image, resolved, hex, hgoes,
      hagain (replying_echoed image resolved c s s')⟩

end Pipeline
end ImagePolicy
