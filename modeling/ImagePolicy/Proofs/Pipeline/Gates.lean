/-
# The gates of a run

Each question of a run is a gate: with some replies the run ends there, in a verdict that the reply
fixes, and with the others it goes on to the next gate. What a run comes to are the gates up to the
first that ends it (`reached`), and that one decides the verdict; if all of them let it go on, the
classification does (`decided`). So to know how a run ends it is enough to know of every gate for
itself with which replies it ends a run, and how (`Replies.refusal`, `Replies.gates`).

Key definitions: `Gate`, `reached`, `decided`, `Stage.complaint`, `Replies.refusal`,
`Replies.gates`, `Replies.classification`.
Key theorems: `decided_eq_iff`, `decided_of_mem_reached`, `mem_reached_of_call`,
`Replies.verdict_eq_decided`, `Pipeline.validate_gates`.
-/
import ImagePolicy.Proofs.Pipeline.Calls
import ImagePolicy.Proofs.Pipeline.Admission
import Mathlib.Data.List.Nodup

namespace ImagePolicy

/-! ### Rows of gates -/

/-- A question, and the verdict that its reply ends the run with, if it does. -/
structure Gate where
  call : Call
  ending : Option Verdict

/-- The gates that a run comes to: all of them up to the first that ends it. -/
def reached : List Gate → List Gate
  | [] => []
  | g :: gates =>
    match g.ending with
    | some _ => [g]
    | none => g :: reached gates

/-- The verdict of a run through gates, if it is `final` behind all of them. -/
def decided (final : Verdict) : List Gate → Verdict
  | [] => final
  | g :: gates => g.ending.getD (decided final gates)

section Rows

variable {final v : Verdict} {g : Gate} {gates : List Gate}

theorem reached_isPrefix : ∀ gates : List Gate, reached gates <+: gates
  | [] => List.prefix_rfl
  | x :: gates => by
    unfold reached
    split
    · exact List.cons_prefix_cons.mpr ⟨rfl, List.nil_prefix⟩
    · exact List.cons_prefix_cons.mpr ⟨rfl, reached_isPrefix gates⟩

theorem mem_of_mem_reached (h : g ∈ reached gates) : g ∈ gates :=
  (reached_isPrefix gates).subset h

theorem decided_cons_iff :
    decided final (g :: gates) = v ↔
      g.ending = some v ∨ g.ending = none ∧ decided final gates = v := by
  rw [decided]
  cases g.ending <;> simp

/-- **A verdict comes from a gate that the run comes to**, or from behind all of them. -/
theorem decided_eq_iff : ∀ {gates : List Gate}, decided final gates = v ↔
    (∃ g ∈ reached gates, g.ending = some v) ∨ (∀ g ∈ gates, g.ending = none) ∧ final = v
  | [] => by simp [decided, reached]
  | x :: gates => by
    rw [decided_cons_iff, decided_eq_iff, reached]
    cases hx : x.ending with
    | some w => simp [hx]
    | none => simp [hx]

/-- A gate that the run comes to and that ends it decides. -/
theorem decided_of_mem_reached (hg : g ∈ reached gates) (hv : g.ending = some v) :
    decided final gates = v :=
  decided_eq_iff.mpr (Or.inl ⟨g, hg, hv⟩)

theorem reached_append_of_open {front back : List Gate} (h : ∀ x ∈ front, x.ending = none) :
    reached (front ++ back) = front ++ reached back := by
  induction front with
  | nil => rfl
  | cons x front ih =>
    obtain ⟨hx, hrest⟩ := List.forall_mem_cons.mp h
    rw [List.cons_append, reached, hx]
    exact congrArg (x :: ·) (ih hrest)

theorem reached_of_open (h : ∀ g ∈ gates, g.ending = none) : reached gates = gates := by
  simpa [reached] using @reached_append_of_open gates [] h

/-- A run comes to a gate only through those before it. -/
theorem open_of_mem_reached {front back : List Gate}
    (hnodup : ((front ++ g :: back).map Gate.call).Nodup) (hg : g ∈ reached (front ++ g :: back)) :
    ∀ x ∈ front, x.ending = none := by
  induction front with
  | nil => exact fun _ h => nomatch h
  | cons x front ih =>
    rw [List.cons_append, List.map_cons, List.nodup_cons] at hnodup
    have hne : g ≠ x := by
      rintro rfl
      exact hnodup.1 (List.mem_map_of_mem (List.mem_append_right _ List.mem_cons_self))
    rw [List.cons_append, reached] at hg
    cases hx : x.ending with
    | some w =>
      rw [hx] at hg
      exact absurd (List.mem_singleton.mp hg) hne
    | none =>
      rw [hx] at hg
      have hrest := (List.mem_cons.mp hg).resolve_left hne
      exact List.forall_mem_cons.mpr ⟨hx, ih hnodup.2 hrest⟩

/-- Where no question comes twice, a gate whose question is asked is one that the run comes to. -/
theorem mem_reached_of_call (hnodup : (gates.map Gate.call).Nodup) (hg : g ∈ gates)
    (hcall : g.call ∈ (reached gates).map Gate.call) : g ∈ reached gates := by
  obtain ⟨x, hx, hsame⟩ := List.mem_map.mp hcall
  have hxg : x = g := List.inj_on_of_nodup_map hnodup (mem_of_mem_reached hx) hg hsame
  exact hxg ▸ hx

/-- Going through steps is coming to gates. -/
theorem Through.calls_eq {calls : List Call}
    (h : Through (gates.map fun g => (g.call, g.ending = none)) calls) :
    calls = (reached gates).map Gate.call := by
  induction gates generalizing calls with
  | nil =>
    cases h
    rfl
  | cons x gates ih =>
    rw [List.map_cons] at h
    cases h with
    | goOn hopen hrest =>
      rw [reached, hopen, ih hrest]
      rfl
    | stop hends =>
      obtain ⟨w, hw⟩ := Option.ne_none_iff_exists'.mp hends
      rw [reached, hw]
      rfl

end Rows

/-! ### The gates of replies -/

/-- The ending that a reply makes: errors in one way, what is heard in another. -/
def ending {α : Type} (refused : CollaboratorError → Option Verdict)
    (heard : α → Option Verdict) : Reply α → Option Verdict
  | .error err => refused err
  | .ok a => heard a

/-- The words in front of an error that a stage is reported to have failed with. -/
def Stage.complaint : Stage → String
  | .imageAccess => "Image URL is not accessible: "
  | .imageSignatures => "Image signature check failed: "
  | .attestationSignatures => "Image attestation check failed: "
  | .digestResolution => ""
  | .ruleEvaluation => ""

namespace Replies

variable (r : Replies) (image : ImageReference) (c : PolicyContext) (url : String)

/-- How a run ends whose collaborator replies with an error at a stage. A cancellation ends it at
every stage. Otherwise an image out of reach and attestations that do not verify are reported, a
digest or results that fail are an error, and the image's own signatures end nothing. -/
def refusal : Stage → CollaboratorError → Option Verdict
  | stage, .cancelled => some (.error (.cancelled stage))
  | .imageAccess, err =>
    some (.ok {
      imageUrl := url
      imageAccessible := some (.fail (Stage.imageAccess.complaint ++ err.told)) })
  | .imageSignatures, _ => none
  | .attestationSignatures, err =>
    some (.ok { r.begun image with
      attestationSignature := some (.fail (Stage.attestationSignatures.complaint ++ err.told)) })
  | stage, err => some (.error (.collaborator stage err))

/-- The report on verified attestations, with checks of the policy. -/
def report (as : List Attestation) (checks : List CheckGroup) : Report :=
  (r.begun image).judged (r.governed c) r.imageSignatures as checks

/-- The gate of the access to the image. -/
def accessGate : Gate :=
  ⟨.probe image, ending (r.refusal image url .imageAccess) (fun _ => none) r.probe⟩

/-- The gate of the digest, which a text that is no digest does not pass either. -/
def digestGate : Gate :=
  ⟨.digest image, ending (r.refusal image url .digestResolution)
    (fun digest => (digestFault? digest.toList).map fun fault =>
      .error (.reference (image.withDigest digest) fault)) r.digest⟩

/-- The gate of the image's signatures. -/
def signaturesGate : Gate :=
  ⟨.imageSignatures (r.resolved image) c.publicKey c.rekorUrl,
    ending (r.refusal image url .imageSignatures) (fun _ => none) r.imageSignatures⟩

/-- The gate of the attestations, of which one has to count. -/
def attestationsGate : Gate :=
  ⟨.attestations (r.resolved image) c.publicKey c.rekorUrl,
    ending (r.refusal image url .attestationSignatures)
      (fun as => if r.counted = [] then some (.ok (r.report image c as noMatchCheck)) else none)
      r.attestations⟩

/-- The gate of the staging, whose error is the run's. -/
def stagingGate : Gate :=
  ⟨.writeInput r.counted.length,
    match r.staging with
    | .error err => some (.error err)
    | .ok _ => none⟩

/-- The gate of an evaluation. -/
def evaluationGate (e : Call × Reply (List CheckGroup)) : Gate :=
  ⟨e.1, ending (r.refusal image url .ruleEvaluation) (fun _ => none) e.2⟩

/-- The gates of a run with these replies. -/
def gates : List Gate :=
  r.accessGate image url :: r.digestGate image url :: r.signaturesGate image c url ::
    r.attestationsGate image c url :: r.stagingGate ::
    r.evaluations.map (r.evaluationGate image url)

/-- The verdict behind all gates: what the classification makes of the results. -/
def classification : Verdict :=
  match (Classifier.ofContext (r.governed c)).classify? r.groups with
  | some checks => .ok (r.report image c (r.attestations.toOption.getD []) checks)
  | none => .error .noResults

/-! ### How gates decide -/

theorem probeGate_eq (next : Verdict) :
    probeGate url r.probe next = (r.accessGate image url).ending.getD next := by
  unfold accessGate
  rcases r.probe with (_ | _ | _) | ⟨⟩ <;> rfl

theorem digestGate_eq (next : Verdict) :
    ImagePolicy.digestGate image r.digest next = (r.digestGate image url).ending.getD next := by
  unfold digestGate
  rcases r.digest with (_ | _ | _) | digest
  · rfl
  · rfl
  · rfl
  · simp only [ImagePolicy.digestGate, ImageReference.resolve, ending]
    cases digestFault? digest.toList <;> rfl

theorem signatureGate_eq (next : Verdict) :
    signatureGate r.imageSignatures next = (r.signaturesGate image c url).ending.getD next := by
  unfold signaturesGate
  rcases r.imageSignatures with (_ | _ | _) | signatures <;> rfl

variable {r image c url}

/-- The evaluations let a run go on if all of them have results, and these are then gathered. -/
theorem decided_evaluations (final : Verdict) (es : List (Call × Reply (List CheckGroup))) :
    decided final (es.map (r.evaluationGate image url)) =
      match gather (es.map Prod.snd) with
      | .error err => .error err
      | .ok _ => final := by
  induction es with
  | nil => rfl
  | cons e es ih =>
    obtain ⟨call, (_ | _ | _) | groups⟩ := e
    · rfl
    · rfl
    · rfl
    · simp only [List.map_cons, decided, evaluationGate, ending, Option.getD_none, gather]
      rw [ih]
      cases gather (es.map Prod.snd) <;> rfl

theorem gather_evaluations {groups : List CheckGroup}
    (h : gather (r.evaluations.map Prod.snd) = .ok groups) : groups = r.groups := by
  rw [(gather_eq_ok_iff.mp h).2, List.flatMap_map]
  rfl

variable (url) in
/-- The policy has its say at the gates behind the attestations, if any of them counts. -/
theorem outcome_eq_decided {as : List Attestation} (has : r.attestations = .ok as) :
    (r.outcome c).map (r.report image c as) =
      if r.counted = [] then .ok (r.report image c as noMatchCheck)
      else decided (r.classification image c)
        (r.stagingGate :: r.evaluations.map (r.evaluationGate image url)) := by
  unfold outcome policyOutcome stagingGate
  simp only [List.isEmpty_iff, decided]
  by_cases hnone : r.counted = []
  · rw [if_pos hnone, if_pos hnone]
    rfl
  · rw [if_neg hnone, if_neg hnone, decided_evaluations]
    cases r.staging with
    | error err => rfl
    | ok input =>
      cases hg : gather (r.evaluations.map Prod.snd) with
      | error err => rfl
      | ok groups =>
        simp only [gather_evaluations hg, classification, has, Except.toOption, Option.getD_some,
          Option.getD_none]
        cases (Classifier.ofContext (r.governed c)).classify? r.groups <;> rfl

/-- **The verdict is decided at the gates.** -/
theorem verdict_eq_decided :
    r.verdict image c url = decided (r.classification image c) (r.gates image c url) := by
  unfold verdict gates
  rw [probeGate_eq r image, digestGate_eq r image url, signatureGate_eq r image c url, decided,
    decided, decided, decided]
  congr 3
  unfold attestationsGate
  cases has : r.attestations with
  | error err => cases err <;> rfl
  | ok as =>
    refine (outcome_eq_decided url has).trans ?_
    simp only [ending]
    by_cases hnone : r.counted = []
    · rw [if_pos hnone, if_pos hnone]
      rfl
    · rw [if_neg hnone, if_neg hnone]
      rfl

/-! ### Gates that let a run go on -/

theorem accessGate_open_iff : (r.accessGate image url).ending = none ↔ r.probe = .ok () := by
  unfold accessGate
  rcases r.probe with (_ | _ | _) | ⟨⟩ <;> simp [ending, refusal]

theorem digestGate_open_iff : (r.digestGate image url).ending = none ↔
    ∃ digest, r.digest = .ok digest ∧ IsDigest digest r.hex := by
  unfold digestGate
  rcases hd : r.digest with (_ | _ | _) | digest
  · simp [ending, refusal]
  · simp [ending, refusal]
  · simp [ending, refusal]
  · simp only [ending, Option.map_eq_none_iff, digestFault?_eq_none_iff]
    constructor
    · rintro ⟨hex, h⟩
      exact ⟨digest, rfl, isDigest_hex hd h⟩
    · rintro ⟨_, heq, h⟩
      cases heq
      exact ⟨_, h⟩

theorem signaturesGate_open_iff :
    (r.signaturesGate image c url).ending = none ↔ r.imageSignatures ≠ .error .cancelled := by
  unfold signaturesGate
  rcases r.imageSignatures with (_ | _ | _) | signatures <;> simp [ending, refusal]

theorem attestationsGate_open_iff : (r.attestationsGate image c url).ending = none ↔
    (∃ as, r.attestations = .ok as) ∧ r.counted ≠ [] := by
  unfold attestationsGate
  rcases r.attestations with (_ | _ | _) | as <;> simp [ending, refusal]

theorem stagingGate_open_iff : r.stagingGate.ending = none ↔ ∃ input, r.staging = .ok input := by
  unfold stagingGate
  cases r.staging <;> simp

theorem evaluationGate_open_iff {e : Call × Reply (List CheckGroup)} :
    (r.evaluationGate image url e).ending = none ↔ ∃ groups, e.2 = .ok groups := by
  obtain ⟨call, (_ | _ | _) | groups⟩ := e <;> simp [evaluationGate, ending, refusal]

variable (url) in
/-- The steps of a run are its gates, and it goes on after a step if the gate lets it. -/
theorem steps_eq_gates : r.steps image c =
    (r.gates image c url).map fun g => (g.call, g.ending = none) := by
  have hevaluations : r.evaluations.map evaluationStep =
      (r.evaluations.map (r.evaluationGate image url)).map fun g => (g.call, g.ending = none) := by
    rw [List.map_map]
    refine List.map_congr_left fun e _ => ?_
    exact Prod.ext rfl (propext evaluationGate_open_iff).symm
  have hattestations : (∃ as, r.attestations = .ok as ∧
      ∃ a ∈ as, a.fault? = none ∧ r.hex ∈ a.subjectDigests) ↔
        (∃ as, r.attestations = .ok as) ∧ r.counted ≠ [] := by
    rw [← attestations_hold_iff]
    exact ⟨fun ⟨as, h, ha⟩ => ⟨⟨as, h⟩, as, h, ha⟩, And.right⟩
  simp only [steps, gates, List.map_cons, accessGate_open_iff, digestGate_open_iff,
    signaturesGate_open_iff, attestationsGate_open_iff, stagingGate_open_iff, hattestations,
    hevaluations]
  rfl

end Replies

/-! ### The gates that a run comes to -/

namespace Pipeline

variable {p : Pipeline} {url : String} {image : ImageReference} {c : PolicyContext} {s : Session}

/-- No question comes twice. -/
theorem gates_nodup : (((p.replies image c s).gates image c url).map Gate.call).Nodup := by
  have hsteps : ((p.replies image c s).steps image c).map Prod.fst =
      ((p.replies image c s).gates image c url).map Gate.call := by
    rw [Replies.steps_eq_gates url, List.map_map]
    rfl
  rw [← hsteps]
  have htasks : (((p.replies image c s).steps image c).map Prod.fst).map Call.task <+:
      protocol p.evaluators.length := steps_tasks_isPrefix
  have hprotocol : (protocol p.evaluators.length).Nodup :=
    (List.nodup_append.mp (protocol_nodup _)).1
  exact (hprotocol.sublist htasks.sublist).of_map _

/-- **A run comes to its gates up to the first that ends it**, asks their questions, and ends in
the verdict that is decided there. -/
theorem validate_gates (h : ImageReference.parse url = .ok image) :
    (p.validate url c s).1 = decided ((p.replies image c s).classification image c)
        ((p.replies image c s).gates image c url) ∧
      (p.validate url c s).2.calls = s.calls ++
        (reached ((p.replies image c s).gates image c url)).map Gate.call ++
          releases p.evaluators.length := by
  have hrun := run_goes (p := p) (c := c) (s := s) h
  obtain ⟨calls, hthrough, hcalls⟩ := hrun.calls_eq
  rw [Replies.steps_eq_gates url] at hthrough
  constructor
  · exact hrun.verdict_eq.trans Replies.verdict_eq_decided
  · rw [← hthrough.calls_eq, ← hcalls]
    rfl

end Pipeline
end ImagePolicy
