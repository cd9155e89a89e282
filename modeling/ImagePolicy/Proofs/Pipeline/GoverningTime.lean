/-
# One time governs a run

The time of a run is fixed before the first evaluator is asked, and it stays what it is then: every
evaluator is asked with it, the failures are judged by it, and the report tells it, if it tells of
verified attestations at all. Which time it is follows from the context and the attestations that
count (`Governs`).

Key definitions: `Replies.Verified`, `Replies.TimedBy`.
Key theorems: `Replies.Run.effectiveTime_isSome_iff`, `Pipeline.timedBy_of_run`,
`Pipeline.validate_time`.
-/
import ImagePolicy.Proofs.Pipeline.Reports
import ImagePolicy.Proofs.Policy.Timing

namespace ImagePolicy
namespace Replies

section Statement

variable (r : Replies) (image : ImageReference) (c : PolicyContext) (calls : List Call)

/-- The attestations were asked for, and they verify. -/
def Verified : Prop :=
  .attestations (r.resolved image) c.publicKey c.rekorUrl ∈ calls ∧ ∃ as, r.attestations = .ok as

/-- A run is governed by one time. -/
structure TimedBy (verdict : Verdict) (time : EffectiveTime) : Prop where
  /-- It is the time that the context and the attestations that count make. -/
  governs : ∀ i, Governs c r.counted i ↔ i = time.instant
  /-- Every evaluator is asked with it. -/
  evaluated : ∀ n input document t, .evaluate n input document t ∈ calls → t = time
  /-- A report has a time just if attestations were verified. -/
  present : ∀ report, verdict = .ok report →
    (report.effectiveTime.isSome = true ↔ r.Verified image c calls)
  /-- The time of a report is this one. -/
  reported : ∀ report, verdict = .ok report → ∀ i, report.effectiveTime = some i →
    i = time.instant
  /-- The results of evaluators are classified by it. -/
  classified : ∀ report, verdict = .ok report → r.Verified image c calls → r.counted ≠ [] →
    List.Forall₂ (Classifier.Partitioned { c with effectiveTime := time }) r.groups
      report.policyCheck

end Statement

variable {r : Replies} {image : ImageReference} {c : PolicyContext} {url : String}
  {calls : List Call} {verdict : Verdict} {report : Report}

namespace Run

variable (h : r.Run image c url calls verdict)
include h

/-- **A report has a time just if attestations were verified.** -/
theorem effectiveTime_isSome_iff (hok : verdict = .ok report) :
    report.effectiveTime.isSome = true ↔ r.Verified image c calls := by
  cases h.reported hok with
  | unreachable _ hprobe =>
    refine iff_of_false (by simp) fun hverified => ?_
    rw [(h.before_attestations hverified.1).1] at hprobe
    cases hprobe
  | unattested _ hr =>
    refine iff_of_false (by simp [begun]) ?_
    rintro ⟨-, as, has⟩
    rw [has] at hr
    cases hr
  | unmatched hcall has => exact iff_of_true rfl ⟨hcall, _, has⟩
  | evaluated hcomplete has =>
    exact iff_of_true rfl ⟨(h.before_staging hcomplete.asked).1, _, has⟩

/-- The time of a report is the one that the attestations left the context with. -/
theorem effectiveTime_eq (hok : verdict = .ok report) {i : Instant}
    (hi : report.effectiveTime = some i) : i = (r.governed c).instant := by
  cases h.reported hok with
  | unreachable => cases hi
  | unattested => cases hi
  | unmatched => exact (Option.some.inj hi).symm
  | evaluated => exact (Option.some.inj hi).symm

/-- The results of evaluators are classified in the context that the attestations left. -/
theorem policyCheck_partitioned (hok : verdict = .ok report) (hverified : r.Verified image c calls)
    (hcounted : r.counted ≠ []) :
    List.Forall₂ (Classifier.Partitioned (r.governed c)) r.groups report.policyCheck := by
  obtain ⟨hcall, as, has⟩ := hverified
  cases h.reported hok with
  | unreachable _ hprobe =>
    rw [(h.before_attestations hcall).1] at hprobe
    cases hprobe
  | unattested _ hr =>
    rw [has] at hr
    cases hr
  | unmatched _ _ hnone => exact absurd hnone hcounted
  | evaluated _ _ hclassified => exact (partitioned_of_classify? hclassified).1

end Run
end Replies

namespace Pipeline

variable {p : Pipeline} {url : String} {image : ImageReference} {c : PolicyContext} {s : Session}
  {calls : List Call} {verdict : Verdict}

/-- **A run is governed by the time that the attestations leave the context with.** -/
theorem timedBy_of_run (h : (p.replies image c s).Run image c url calls verdict) :
    (p.replies image c s).TimedBy image c calls verdict
      ((p.replies image c s).governed c).effectiveTime where
  governs _ := governs_iff.trans eq_comm
  evaluated _ _ _ _ hcall := (steps_evaluate (h.mem_steps hcall)).1
  present _ hok := h.effectiveTime_isSome_iff hok
  reported _ hok _ hi := h.effectiveTime_eq hok hi
  classified _ hok hverified hcounted := by
    have hpartitioned := h.policyCheck_partitioned hok hverified hcounted
    rwa [Replies.governed, attested_eq] at hpartitioned

/-- **One governing time for each run, replaced at most once.** Of the times that are named to a
new context the first counts, if the context has not been given one. And one time governs every run
about an image: all evaluators are asked with it, their results are classified by it, and a report
that has a time has this one. -/
theorem validate_time :
    (∀ clock spec o c, PolicyContext.new clock spec o = .ok c →
      (c.effectiveTime = .now clock ∨ ∃ i, c.effectiveTime = .pinned i) ∧
        ∀ js : List Instant, c.FixedOnce js (js.foldl PolicyContext.setAttestationTime c)) ∧
    ∀ (p : Pipeline) (url : String) (c : PolicyContext) (s : Session) (image : ImageReference),
      ImageReference.parse url = .ok image → ∃ calls,
        (p.validate url c s).2.calls = s.calls ++ calls ++ releases p.evaluators.length ∧
          ∃ time, (p.replies image c s).TimedBy image c calls (p.validate url c s).1 time := by
  constructor
  · intro clock spec o c hnew
    obtain ⟨hstandIn, hpinned⟩ := PolicyContext.origin_of_new hnew
    refine ⟨?_, c.fixedOnce⟩
    by_cases hempty : o.effectiveTime.getD "" = ""
    · exact .inl (hstandIn hempty)
    · exact .inr (hpinned hempty)
  · intro p url c s image hparse
    obtain ⟨calls, hcalls, hrun⟩ := validate_run (p := p) (c := c) (s := s) hparse
    exact ⟨calls, hcalls, _, timedBy_of_run hrun⟩

/-- The time at which its only attestation was built governs a run whose context stands in for
now. -/
theorem validate_time_built :
    let hex := String.ofList (List.replicate 64 'a')
    let about : Attestation := {
      statement := .object [
        ("_type", .text "https://in-toto.io/Statement/v0.1"),
        ("predicate", .object [("metadata", .object [
          ("buildFinishedOn", .text "2024-01-01T00:00:00Z")])]),
        ("predicateType", .text "https://slsa.dev/provenance/v0.2"),
        ("subject", .list [.object [("digest", .object [("sha256", .text hex)])]])] }
    let p := replying ("sha256:" ++ hex) (.ok []) (.ok [about])
      [{ successes := [{ message := "built" }] }]
    let c : PolicyContext := ⟨"key", none, [], [], [], [], [], .now ⟨0, 0⟩⟩
    let s := Session.initial ⟨[], 0, []⟩
    let image : ImageReference := ⟨"localhost", "app", some "1", none⟩
    ImageReference.parse "localhost/app:1" = .ok image ∧
      ∃ calls, (p.validate "localhost/app:1" c s).2.calls = s.calls ++ calls ++ releases 1 ∧
        ∃ time, (p.replies image c s).TimedBy image c calls (p.validate "localhost/app:1" c s).1
          time ∧ time.instant = ⟨1704067200, 0⟩ := by
  intro hex about p c s image
  have hparse : ImageReference.parse "localhost/app:1" = .ok image := by rfl
  have hinstant : (p.validate "localhost/app:1" c s).1.toOption.bind Report.effectiveTime =
      some ⟨1704067200, 0⟩ := by decide +kernel
  obtain ⟨calls, hcalls, time, htimed⟩ := validate_time.2 p "localhost/app:1" c s image hparse
  refine ⟨hparse, calls, hcalls, time, htimed, ?_⟩
  cases hok : (p.validate "localhost/app:1" c s).1 with
  | error err =>
    rw [hok] at hinstant
    cases hinstant
  | ok report =>
    rw [hok] at hinstant
    exact (htimed.reported report hok _ hinstant).symm

end Pipeline
end ImagePolicy
