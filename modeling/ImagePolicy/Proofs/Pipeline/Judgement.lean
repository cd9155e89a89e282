/-
# What the verdict of a report goes by

A report passes if nothing in it blocks, and what blocks are messages and failures. A stage that
failed and left no message therefore blocks nothing: if there is such a stage in a report, and
neither a message of another failed stage nor a failure of the rules, the report passes although a
stage in it failed (`Report.Overlooked`). On all other reports the verdict is the one that the
stages and the failures give (`Report.passed_agrees_iff`).

No run ends in a report of that kind, because a run leaves a message at every stage
(`Replies.Reported.told`). So the verdict of a run can be read off its stages and failures
(`Pipeline.validate_unblocked_iff`); it is reports that are put together elsewhere whose verdict
can go wrong.

Key definitions: `Report.Unblocked`, `Report.Overlooked`, `Report.Told`.
Key theorems: `Report.passed_iff_silent`, `Report.passed_agrees_iff`, `Replies.Reported.told`,
`Pipeline.validate_unblocked_iff`.
-/
import ImagePolicy.Proofs.Pipeline.Admission
import ImagePolicy.Proofs.Pipeline.Endings

namespace ImagePolicy
namespace Report

variable {report : Report}

/-- No stage failed that was run, and no group of the rules holds a failure. -/
structure Unblocked (report : Report) : Prop where
  stages : ∀ status, some status ∈ report.stages → status.passed = true
  failures : ∀ g ∈ report.policyCheck, g.failures = []

/-- A stage failed, but no failed stage left a message, and the rules left no failure. -/
structure Overlooked (report : Report) : Prop where
  failed : ∃ status, some status ∈ report.stages ∧ status.passed = false
  silent : ∀ status, some status ∈ report.stages → status.passed = false → status.result = none
  failures : ∀ g ∈ report.policyCheck, g.failures = []

theorem violation?_eq_none_iff {status : StageStatus} :
    status.violation? = none ↔ (status.passed = false → status.result = none) := by
  unfold StageStatus.violation?
  cases status.passed with
  | true => simp
  | false => simp

/-- A report passes if its failed stages are silent and the rules left no failure. -/
theorem passed_iff_silent : report.passed = true ↔
    (∀ status, some status ∈ report.stages → status.passed = false → status.result = none) ∧
      ∀ g ∈ report.policyCheck, g.failures = [] := by
  simp only [passed_iff, violation?_eq_none_iff]

/-- A report in which no stage failed and the rules left no failure passes. -/
theorem Unblocked.passed (h : report.Unblocked) : report.passed = true := by
  rw [passed_iff_silent]
  refine ⟨fun status hstatus hfailed => ?_, h.failures⟩
  have hpassed := h.stages status hstatus
  rw [hfailed] at hpassed
  cases hpassed

/-- What passes is not blocked, or a failed stage is overlooked in it. -/
theorem unblocked_or_overlooked (h : report.passed = true) :
    report.Unblocked ∨ report.Overlooked := by
  obtain ⟨hsilent, hfailures⟩ := passed_iff_silent.mp h
  by_cases hfailed : ∃ status, some status ∈ report.stages ∧ status.passed = false
  · right
    exact ⟨hfailed, hsilent, hfailures⟩
  · left
    refine ⟨fun status hstatus => ?_, hfailures⟩
    rw [← Bool.not_eq_false]
    intro hnot
    exact hfailed ⟨status, hstatus, hnot⟩

/-- **The verdict is right unless a failed stage is overlooked.** It says of a report that no stage
in it failed and no group holds a failure, except where the stages that failed have left no message
and there is no failure to make up for it; such a report passes. -/
theorem passed_agrees_iff (report : Report) :
    (report.passed = true ↔ report.Unblocked) ↔ ¬report.Overlooked := by
  constructor
  · intro hagrees hoverlooked
    have hpassed : report.passed = true :=
      passed_iff_silent.mpr ⟨hoverlooked.silent, hoverlooked.failures⟩
    obtain ⟨status, hstatus, hfailed⟩ := hoverlooked.failed
    have htrue := (hagrees.mp hpassed).stages status hstatus
    rw [hfailed] at htrue
    cases htrue
  · intro hnot
    constructor
    · intro hpassed
      exact (unblocked_or_overlooked hpassed).resolve_right hnot
    · intro hunblocked
      exact hunblocked.passed

/-- A report passes whose image signature failed without a message. -/
theorem passed_overlooked :
    let report : Report := { imageUrl := "img", imageSignature := some ⟨false, none⟩ }
    report.passed = true ∧ ¬report.Unblocked := by
  intro report
  refine ⟨by decide, fun h => ?_⟩
  have hpassed := h.stages ⟨false, none⟩ (by simp [report, stages])
  cases hpassed

/-! ### The reports of runs -/

/-- Every stage that was run left a message. -/
def Told (report : Report) : Prop :=
  ∀ status, some status ∈ report.stages → status.result ≠ none

theorem Told.not_overlooked (h : report.Told) : ¬report.Overlooked := by
  intro hoverlooked
  obtain ⟨status, hstatus, hfailed⟩ := hoverlooked.failed
  exact h status hstatus (hoverlooked.silent status hstatus hfailed)

end Report

theorem result_signatureStatus (reply : Reply (List Signature)) :
    (signatureStatus reply).result ≠ none := by
  cases reply <;> simp [signatureStatus, StageStatus.pass, StageStatus.fail]

theorem result_shapeStatus (faults : List IndexedFault) : (shapeStatus faults).result ≠ none := by
  unfold shapeStatus
  split <;> simp [StageStatus.pass, StageStatus.fail]

/-- **A run leaves a message at every stage.** -/
theorem Replies.Reported.told {r : Replies} {image : ImageReference} {c : PolicyContext}
    {url : String} {calls : List Call} {report : Report}
    (h : r.Reported image c url calls report) : report.Told := by
  have hpass : ∀ message, (StageStatus.pass message).result ≠ none := fun _ => nofun
  have hfail : ∀ message, (StageStatus.fail message).result ≠ none := fun _ => nofun
  have hsignature := result_signatureStatus r.imageSignatures
  unfold Report.Told Report.stages
  cases h with
  | unreachable => simp [hfail]
  | unattested => simp [Replies.begun, hpass, hfail, hsignature]
  | unmatched => simp [Replies.report, Report.judged, Replies.begun, hpass, hsignature,
      result_shapeStatus]
  | evaluated => simp [Replies.report, Report.judged, Replies.begun, hpass, hsignature,
      result_shapeStatus]

namespace Pipeline

/-- **The verdict of a run can be read off its stages and failures.** A report that a run ends in
passes if no stage in it failed and no group holds a failure, and only then. -/
theorem validate_unblocked_iff (p : Pipeline) (url : String) (c : PolicyContext) (s : Session)
    (report : Report) (hok : (p.validate url c s).1 = .ok report) :
    report.passed = true ↔ report.Unblocked := by
  cases hparse : ImageReference.parse url with
  | error fault =>
    rw [validate_of_malformed hparse] at hok
    cases hok
  | ok image =>
    obtain ⟨calls, -, hrun⟩ := validate_run (p := p) (c := c) (s := s) hparse
    have htold : report.Told := (hrun.reported hok).told
    constructor
    · intro hpassed
      exact (Report.unblocked_or_overlooked hpassed).resolve_right htold.not_overlooked
    · intro hunblocked
      exact hunblocked.passed

end Pipeline
end ImagePolicy
