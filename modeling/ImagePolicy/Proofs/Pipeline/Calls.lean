/-
# The calls of a run

A run calls its collaborators in one fixed order (`protocol`), and leaves off after the first whose
reply ends it. Then it releases every evaluator. So what a run calls is the front of a list that
names each task once, and from there it follows that no evaluator runs twice, that each of them is
released once, and that none runs after the release.

Key definitions: `Task`, `protocol`.
Key theorems: `Through.isPrefix`, `protocol_nodup`, `Pipeline.steps_tasks_isPrefix`,
`Pipeline.steps_evaluate`, `Pipeline.validate_calls`.
-/
import ImagePolicy.Proofs.Pipeline.Replies

namespace ImagePolicy

/-- What is asked of a collaborator, whatever it is asked about. -/
inductive Task where
  | probe
  | digest
  | imageSignatures
  | attestations
  | writeInput
  | evaluate (evaluator : Nat)
  | release (evaluator : Nat)
  deriving DecidableEq, Repr

/-- The task of a call. -/
def Call.task : Call → Task
  | .probe _ => .probe
  | .digest _ => .digest
  | .imageSignatures _ _ _ => .imageSignatures
  | .attestations _ _ _ => .attestations
  | .writeInput _ => .writeInput
  | .evaluate i _ _ _ => .evaluate i
  | .release i => .release i

/-- The tasks before a run with so many evaluators ends, in order. -/
def protocol (evaluators : Nat) : List Task :=
  [.probe, .digest, .imageSignatures, .attestations, .writeInput] ++
    (List.range evaluators).map .evaluate

/-- The release at the end of a run. -/
def releases (evaluators : Nat) : List Call :=
  (List.range evaluators).map .release

/-! ### The order of the tasks -/

theorem nodup_map_range {f : Nat → Task} (hf : ∀ i j, f i = f j → i = j) (n : Nat) :
    ((List.range n).map f).Nodup :=
  List.pairwise_map.mpr (List.nodup_range.imp fun hne he => hne (hf _ _ he))

/-- No task comes twice, the releases included. -/
theorem protocol_nodup (n : Nat) : (protocol n ++ (releases n).map Call.task).Nodup := by
  have hevaluate : ((List.range n).map Task.evaluate).Nodup :=
    nodup_map_range (fun _ _ => Task.evaluate.inj) n
  have hrelease : ((List.range n).map Task.release).Nodup :=
    nodup_map_range (fun _ _ => Task.release.inj) n
  have hreleases : (releases n).map Call.task = (List.range n).map Task.release := by
    rw [releases, List.map_map]
    rfl
  rw [hreleases]
  simp [protocol, List.nodup_append, hevaluate, hrelease]

/-- Calls go along the steps. -/
theorem Through.isPrefix {steps : List (Call × Prop)} {calls : List Call}
    (h : Through steps calls) : calls <+: steps.map Prod.fst := by
  induction h with
  | done => exact List.prefix_rfl
  | goOn _ _ ih => exact List.cons_prefix_cons.mpr ⟨rfl, ih⟩
  | stop _ => exact List.cons_prefix_cons.mpr ⟨rfl, List.nil_prefix⟩

theorem Through.ne_nil {step : Call × Prop} {steps : List (Call × Prop)} {calls : List Call}
    (h : Through (step :: steps) calls) : calls ≠ [] := by
  cases h <;> exact List.cons_ne_nil _ _

namespace Pipeline

variable {p : Pipeline} {image : ImageReference} {c : PolicyContext} {s : Session}

/-- Evaluators are asked in their order. -/
theorem askEvaluators_tasks (input : Path) : ∀ (index : Nat) (es : List Evaluator) (s : Session),
    (askEvaluators input c index es s).map (fun e => e.1.task) =
      (List.range' index es.length).map Task.evaluate
  | _, [], _ => rfl
  | index, e :: es, s => by
    have ih := askEvaluators_tasks input (index + 1) es (s.evaluate index e input c).2
    rw [askEvaluators, List.map_cons, ih, List.length_cons, List.range'_succ, List.map_cons]
    rfl

/-- All evaluators are asked about the same input, with the same time. -/
theorem askEvaluators_input (input : Path) : ∀ (index : Nat) (es : List Evaluator) (s : Session),
    ∀ e ∈ askEvaluators input c index es s, ∃ i document,
      e.1 = .evaluate i input document c.effectiveTime
  | _, [], _ => fun _ h => nomatch h
  | index, e :: es, s => by
    rw [askEvaluators, List.forall_mem_cons]
    exact ⟨⟨_, _, rfl⟩, askEvaluators_input input (index + 1) es _⟩

/-- An evaluation leaves the turns of the evaluators behind it. -/
theorem turns_evaluate_behind (s : Session) (index : Nat) (e : Evaluator) (input : Path)
    (c : PolicyContext) (k : Nat) :
    (s.evaluate index e input c).2.turns (index + 1 + k) = s.turns (index + (k + 1)) := by
  have hne : index + 1 + k ≠ index := by omega
  have hsum : index + 1 + k = index + (k + 1) := by omega
  rw [← hsum]
  exact if_neg hne

theorem evaluations_tasks_isPrefix (as : List Attestation) :
    (p.evaluations c s as).map (fun e => e.1.task) <+:
      (List.range p.evaluators.length).map Task.evaluate := by
  unfold evaluations
  rcases p.writer as s.disk with err | ⟨staged, disk⟩
  · exact List.nil_prefix
  · simp only [askEvaluators_tasks, List.range_eq_range']
    exact List.prefix_rfl

theorem evaluations_input (as : List Attestation) : ∀ e ∈ p.evaluations c s as,
    ∃ i document staged disk, p.writer as s.disk = .ok (staged, disk) ∧
      e.1 = .evaluate i staged.path document c.effectiveTime := by
  intro e he
  unfold evaluations at he
  cases hw : p.writer as s.disk with
  | error err =>
    rw [hw] at he
    cases he
  | ok input =>
    rw [hw] at he
    obtain ⟨i, document, hcall⟩ := askEvaluators_input _ _ _ _ e he
    exact ⟨i, document, input.1, input.2, rfl, hcall⟩

/-- The tasks of the steps go along the protocol. -/
theorem steps_tasks_isPrefix :
    (((p.replies image c s).steps image c).map Prod.fst).map Call.task <+:
      protocol p.evaluators.length := by
  have hsteps : (((p.replies image c s).steps image c).map Prod.fst).map Call.task =
      [.probe, .digest, .imageSignatures, .attestations, .writeInput] ++
        (p.replies image c s).evaluations.map fun e => e.1.task := by
    simp only [Replies.steps, List.map_cons, List.map_map]
    rfl
  rw [hsteps]
  exact (List.prefix_append_right_inj _).mpr (evaluations_tasks_isPrefix _)

/-- Evaluators are asked about the input that was staged, with the time that governs the run. -/
theorem steps_evaluate {i : Nat} {input : Path} {document : Option Bytes} {time : EffectiveTime}
    (h : .evaluate i input document time ∈ ((p.replies image c s).steps image c).map Prod.fst) :
    time = ((p.replies image c s).governed c).effectiveTime ∧
      ∃ staged disk, (p.replies image c s).staging = .ok (staged, disk) ∧ input = staged.path := by
  simp only [Replies.steps, List.map_cons, List.map_map, List.mem_cons, reduceCtorEq,
    false_or] at h
  obtain ⟨e, he, hcall⟩ := List.mem_map.mp h
  obtain ⟨j, content, staged, disk, hw, hj⟩ := evaluations_input _ e he
  have heq : Call.evaluate j staged.path content _ = .evaluate i input document time :=
    hj.symm.trans hcall
  cases heq
  exact ⟨rfl, staged, disk, hw, rfl⟩

/-- **The calls of a run.** They are some calls in the order of the protocol and then the release
of all evaluators, and no task comes twice. There are no calls before the release just if the
reference is none; otherwise they go through the steps of the replies, up to the first that stops
the run, and all evaluators that are asked are asked about the same input at the same time. -/
theorem validate_calls (p : Pipeline) (url : String) (c : PolicyContext) (s : Session) :
    ∃ calls,
      (p.validate url c s).2.calls = s.calls ++ calls ++ releases p.evaluators.length ∧
      calls.map Call.task <+: protocol p.evaluators.length ∧
      ((calls ++ releases p.evaluators.length).map Call.task).Nodup ∧
      (calls = [] ↔ ∃ fault, ImageReference.parse url = .error fault) ∧
      ∀ image, ImageReference.parse url = .ok image →
        Through ((p.replies image c s).steps image c) calls ∧
        ∀ i input document time, .evaluate i input document time ∈ calls →
          time = ((p.replies image c s).governed c).effectiveTime ∧
          ∃ staged disk, (p.replies image c s).staging = .ok (staged, disk) ∧
            input = staged.path := by
  have hrun : ∀ calls, (p.run url c s).2.calls = s.calls ++ calls →
      (p.validate url c s).2.calls = s.calls ++ calls ++ releases p.evaluators.length :=
    fun calls h => congrArg (· ++ releases p.evaluators.length) h
  have hnodup : ∀ calls : List Call, calls.map Call.task <+: protocol p.evaluators.length →
      ((calls ++ releases p.evaluators.length).map Call.task).Nodup := fun calls h => by
    rw [List.map_append]
    exact (protocol_nodup _).sublist (h.sublist.append_right _)
  cases hparse : ImageReference.parse url with
  | error fault =>
    refine ⟨[], hrun [] ?_, List.nil_prefix, hnodup [] List.nil_prefix, ?_, fun _ h => nomatch h⟩
    · rw [run_of_malformed hparse, List.append_nil]
    · exact ⟨fun _ => ⟨fault, rfl⟩, fun _ => rfl⟩
  | ok image =>
    obtain ⟨calls, hthrough, hcalls⟩ := (run_goes (p := p) (c := c) (s := s) hparse).calls_eq
    have hprefix : calls.map Call.task <+: protocol p.evaluators.length :=
      (hthrough.isPrefix.map Call.task).trans steps_tasks_isPrefix
    refine ⟨calls, hrun calls hcalls, hprefix, hnodup calls hprefix, ?_, ?_⟩
    · exact ⟨fun h => absurd h hthrough.ne_nil, fun ⟨_, h⟩ => nomatch h⟩
    · intro found h
      cases h
      exact ⟨hthrough, fun i input document time hmem =>
        steps_evaluate (hthrough.isPrefix.subset hmem)⟩

end Pipeline
end ImagePolicy
