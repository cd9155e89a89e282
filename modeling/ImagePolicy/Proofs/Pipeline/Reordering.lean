/-
# The order of the evaluators

Evaluators are asked in a row, but what is made of their results does not depend on the row. Suppose
every evaluator has results of its own, wherever it stands (`Pipeline.HasOwn`). Then a run with the
evaluators in another order comes to the same end: it has nothing to go by if the other has nothing
to go by, and otherwise the reports are equal up to the order of the groups of the policy check
(`Report.Reordered`).

The results are gathered, counted, and classified group by group. So a run that comes to the
classification is told by its replies, and of these only the evaluations are in another order.

Key definitions: `Pipeline.Stages`, `Pipeline.HasOwn`, `Report.Reordered`.
Key theorems: `Report.reordered_of_perm`, `Pipeline.replies_of_evaluators`,
`Replies.classification_of_groups`, `Pipeline.validate_reordered`.
-/
import ImagePolicy.Proofs.Pipeline.Endings
import ImagePolicy.Proofs.Pipeline.Influence

namespace ImagePolicy

/-! ### Reports with the groups in another order -/

namespace Report

/-- The second report has the groups of the first in another order, and is equal to it otherwise. -/
structure Reordered (a b : Report) : Prop where
  others : b = { a with policyCheck := b.policyCheck }
  groups : b.policyCheck.Perm a.policyCheck
  passed : b.passed = a.passed
  warnings : b.warnings.Perm a.warnings
  successes : b.successes.Perm a.successes
  violations : b.violations.Perm a.violations
  /-- The stages that failed come first, in the same order. -/
  stages : ∃ failuresA failuresB, a.violations = a.stageViolations ++ failuresA ∧
    b.violations = a.stageViolations ++ failuresB ∧ failuresB.Perm failuresA

/-- What is told of a report stays when its groups are put in another order. -/
theorem reordered_of_perm (report : Report) {checks checks' : List CheckGroup}
    (h : checks'.Perm checks) :
    Reordered { report with policyCheck := checks } { report with policyCheck := checks' } := by
  have hfailures : (checks'.flatMap CheckGroup.failures).Perm
      (checks.flatMap CheckGroup.failures) := h.flatMap_right _
  have hviolations : (report.stageViolations ++ checks'.flatMap CheckGroup.failures).Perm
      (report.stageViolations ++ checks.flatMap CheckGroup.failures) := hfailures.append_left _
  exact {
    others := rfl
    groups := h
    passed := hviolations.isEmpty_eq
    warnings := h.flatMap_right _
    successes := h.flatMap_right _
    violations := hviolations
    stages := ⟨_, _, rfl, rfl, hfailures⟩ }

end Report

/-! ### Replies with the evaluations in another order -/

namespace Replies

variable {r : Replies} {image : ImageReference} {c : PolicyContext} {url : String}
  {calls : List Call} {verdict : Verdict}

/-- A run that is complete ends with the classification. -/
theorem Run.verdict_of_complete (h : r.Run image c url calls verdict) (hc : r.Complete calls) :
    verdict = r.classification image c :=
  h.verdict_eq_iff.mpr (.inr ⟨hc, rfl⟩)

/-- A run with other evaluations, all of which have results, is complete if the first is. -/
theorem Run.complete_of_evaluations {es : List (Call × Reply (List CheckGroup))}
    {calls' : List Call} {verdict' : Verdict} (h : r.Run image c url calls verdict)
    (hc : r.Complete calls)
    (h' : { r with evaluations := es }.Run image c url calls' verdict')
    (hes : ∀ e ∈ es, ∃ groups, e.2 = .ok groups) :
    { r with evaluations := es }.Complete calls' := by
  have hopen := h.complete_iff.mp hc
  refine h'.complete_iff.mpr ?_
  simp only [gates, List.forall_mem_cons, List.forall_mem_map] at hopen ⊢
  obtain ⟨haccess, hdigest, hsignatures, hattestations, hstaging, -⟩ := hopen
  exact ⟨haccess, hdigest, hsignatures, hattestations, hstaging,
    fun e he => evaluationGate_open_iff.mpr (hes e he)⟩

/-- **The classification of groups in another order** has nothing to go by where the first has
nothing to go by, and otherwise classifies each group as the first does. -/
theorem classification_of_groups (image : ImageReference) (c : PolicyContext)
    {es : List (Call × Reply (List CheckGroup))} {gs gs' : List CheckGroup}
    (hgroups : r.groups = gs) (hgroups' : { r with evaluations := es }.groups = gs')
    (hperm : gs'.Perm gs) :
    let judged := (Classifier.ofContext (r.governed c)).classifyGroup
    let reported := r.report image c (r.attestations.toOption.getD [])
    let first := r.classification image c
    let second := { r with evaluations := es }.classification image c
    (first = .error .noResults ∧ second = .error .noResults) ∨
      first = .ok (reported (gs.map judged)) ∧ second = .ok (reported (gs'.map judged)) := by
  intro judged reported first second
  have htells : (∃ g ∈ gs', Classifier.Tells (r.governed c) g) ↔
      ∃ g ∈ gs, Classifier.Tells (r.governed c) g :=
    exists_congr fun g => and_congr_left' hperm.mem_iff
  have hgoverned : { r with evaluations := es }.governed c = r.governed c := rfl
  simp only [first, second, classification, hgroups, hgroups', hgoverned]
  by_cases h : ∃ g ∈ gs, Classifier.Tells (r.governed c) g
  · rw [(Classifier.classify?_eq_some_iff _).mpr ⟨h, rfl⟩,
      (Classifier.classify?_eq_some_iff _).mpr ⟨htells.mpr h, rfl⟩]
    exact .inr ⟨rfl, rfl⟩
  · rw [(Classifier.classify?_eq_none_iff _).mpr h,
      (Classifier.classify?_eq_none_iff _).mpr (fun h' => h (htells.mp h'))]
    exact .inl ⟨rfl, rfl⟩

end Replies

/-! ### Runs with the evaluators in another order -/

/-- An evaluator always has the same results. -/
def Evaluator.Steady (e : Evaluator) (groups : List CheckGroup) : Prop :=
  ∀ turn input c t d, (e.evaluate turn input c t d).1 = .ok groups

namespace Pipeline

/-- A run about an image stages its input: it asks for that, and the writer has it. -/
structure Stages (p : Pipeline) (url : String) (image : ImageReference) (c : PolicyContext)
    (s : Session) : Prop where
  parsed : ImageReference.parse url = .ok image
  asked : ∃ calls count, (p.validate url c s).2.calls = s.calls ++ calls ∧ .writeInput count ∈ calls
  given : ∃ input, (p.replies image c s).staging = .ok input

/-- In a run about an image the evaluators have results of their own: each has the results that
stand with it. -/
structure HasOwn (p : Pipeline) (image : ImageReference) (c : PolicyContext) (s : Session)
    (own : List (Evaluator × List CheckGroup)) : Prop where
  evaluators : p.evaluators = own.map Prod.fst
  results : (p.replies image c s).evaluations.map Prod.snd = own.map fun e => .ok e.2

variable {p : Pipeline} {url : String} {image : ImageReference} {c : PolicyContext}
  {s s' : Session} {own own' : List (Evaluator × List CheckGroup)}

theorem HasOwn.answered (h : p.HasOwn image c s own) :
    ∀ e ∈ (p.replies image c s).evaluations, ∃ groups, e.2 = .ok groups := by
  intro e he
  have hresult : e.2 ∈ (p.replies image c s).evaluations.map Prod.snd := List.mem_map_of_mem he
  rw [h.results] at hresult
  obtain ⟨x, -, hx⟩ := List.mem_map.mp hresult
  exact ⟨x.2, hx.symm⟩

theorem HasOwn.groups (h : p.HasOwn image c s own) :
    (p.replies image c s).groups = own.flatMap Prod.snd := by
  have hgroups : (p.replies image c s).groups =
      ((p.replies image c s).evaluations.map Prod.snd).flatMap fun e => e.toOption.getD [] := by
    rw [Replies.groups, List.flatMap_map]
  rw [hgroups, h.results, List.flatMap_map]
  rfl

/-- Evaluators that always have the same results have results of their own, wherever they stand. -/
theorem askEvaluators_steady (input : Path) (c : PolicyContext) :
    ∀ (index : Nat) (own : List (Evaluator × List CheckGroup)) (s : Session),
      (∀ x ∈ own, x.1.Steady x.2) →
      (askEvaluators input c index (own.map Prod.fst) s).map Prod.snd = own.map fun x => .ok x.2
  | _, [], _, _ => rfl
  | index, (e, groups) :: own, s, h => by
    obtain ⟨hfirst, hrest⟩ := List.forall_mem_cons.mp h
    have ih := askEvaluators_steady input c (index + 1) own (s.evaluate index e input c).2 hrest
    have hreply : (s.evaluate index e input c).1 = .ok groups := hfirst _ _ _ _ _
    rw [List.map_cons, askEvaluators, List.map_cons, ih, hreply, List.map_cons]

theorem hasOwn_of_steady (hevaluators : p.evaluators = own.map Prod.fst)
    (hsteady : ∀ x ∈ own, x.1.Steady x.2)
    (hgiven : ∃ input, (p.replies image c s).staging = .ok input) : p.HasOwn image c s own where
  evaluators := hevaluators
  results := by
    obtain ⟨next, hevaluations, hstaging, -, -⟩ := replies_policy p image c s
    obtain ⟨⟨staged, disk⟩, hinput⟩ := hgiven
    rw [hevaluations, evaluations, ← hstaging, hinput, hevaluators]
    exact askEvaluators_steady _ _ 0 own _ hsteady

/-- Other evaluators have other evaluations, and nothing else that is heard changes. -/
theorem replies_of_evaluators (p : Pipeline) (image : ImageReference) (c : PolicyContext)
    (others : List Evaluator) (hdisk : s'.disk = s.disk) (htoken : s'.token = s.token) :
    ∃ es, ({ p with evaluators := others } : Pipeline).replies image c s' =
      { p.replies image c s with evaluations := es } := by
  obtain ⟨disk, token, turns, calls⟩ := s
  obtain ⟨disk', token', turns', calls'⟩ := s'
  cases hdisk
  cases htoken
  exact ⟨_, rfl⟩

/-- A run that stages its input and has results from all evaluators is complete. -/
theorem Stages.complete (h : p.Stages url image c s) (hown : p.HasOwn image c s own) : ∃ calls,
    (p.replies image c s).Run image c url calls (p.validate url c s).1 ∧
      (p.replies image c s).Complete calls := by
  obtain ⟨calls, hcalls, hrun⟩ := validate_run (p := p) (c := c) (s := s) h.parsed
  obtain ⟨all, count, hall, hwrite⟩ := h.asked
  have hsame : all = calls ++ releases p.evaluators.length := by
    rw [hall, List.append_assoc] at hcalls
    exact List.append_cancel_left hcalls
  have hcall : .writeInput count ∈ calls := by
    rw [hsame] at hwrite
    exact (List.mem_append.mp hwrite).resolve_right (by simp [releases])
  have hcount : count = (p.replies image c s).counted.length := by
    have hstep := hrun.mem_steps hcall
    simp only [Replies.steps, List.map_cons, List.map_map, List.mem_cons, reduceCtorEq, false_or,
      Call.writeInput.injEq] at hstep
    refine hstep.resolve_right fun hevaluation => ?_
    obtain ⟨e, he, heq⟩ := List.mem_map.mp hevaluation
    obtain ⟨i, document, _, _, -, hevaluate⟩ := evaluations_input _ e he
    rw [Function.comp_apply, evaluationStep, hevaluate] at heq
    cases heq
  exact ⟨calls, hrun, hcount ▸ hcall, h.given, hown.answered⟩

/-- **The order of the evaluators does not matter.** Let a run stage its input, and let all
evaluators have results of their own, in this run and in another one that asks them in another order
and starts with the same token and the same disk. Then the other run has nothing to go by if and
only if the first has nothing to go by. Otherwise both end in reports, which hold the results of one
evaluator after the other, each group classified alike; and these reports are equal but for the
order of the groups. -/
theorem validate_reordered (hdisk : s'.disk = s.disk) (htoken : s'.token = s.token)
    (hperm : own'.Perm own) (hstages : p.Stages url image c s) (hown : p.HasOwn image c s own)
    (hown' : ({ p with evaluators := own'.map Prod.fst } : Pipeline).HasOwn image c s' own') :
    let verdict := (p.validate url c s).1
    let verdict' := (({ p with evaluators := own'.map Prod.fst } : Pipeline).validate url c s').1
    let judged := (Classifier.ofContext ((p.replies image c s).governed c)).classifyGroup
    (verdict' = .error .noResults ↔ verdict = .error .noResults) ∧
      (verdict ≠ .error .noResults → ∃ report report',
        verdict = .ok report ∧ verdict' = .ok report' ∧ report.Reordered report' ∧
        report.policyCheck = own.flatMap (fun e => e.2.map judged) ∧
        report'.policyCheck = own'.flatMap (fun e => e.2.map judged)) := by
  intro verdict verdict' judged
  obtain ⟨calls, hrun, hcomplete⟩ := hstages.complete hown
  obtain ⟨calls', -, hrun'⟩ := validate_run
    (p := { p with evaluators := own'.map Prod.fst }) (c := c) (s := s') hstages.parsed
  obtain ⟨es, hreplies⟩ := replies_of_evaluators p image c (own'.map Prod.fst) hdisk htoken
  have hanswered := hown'.answered
  have hgroups' := hown'.groups
  rw [hreplies] at hrun' hanswered hgroups'
  have hcomplete' := hrun.complete_of_evaluations hcomplete hrun' hanswered
  have hverdict : verdict = _ := hrun.verdict_of_complete hcomplete
  have hverdict' : verdict' = _ := hrun'.verdict_of_complete hcomplete'
  have hflat : (own'.flatMap Prod.snd).Perm (own.flatMap Prod.snd) := hperm.flatMap_right _
  rcases Replies.classification_of_groups image c hown.groups hgroups' hflat with
    ⟨hnone, hnone'⟩ | ⟨hsome, hsome'⟩
  · rw [hverdict, hverdict', hnone, hnone']
    exact ⟨Iff.rfl, fun hne => absurd rfl hne⟩
  · rw [hverdict, hverdict', hsome, hsome']
    refine ⟨by simp, fun _ => ⟨_, _, rfl, rfl, ?_, List.map_flatMap, List.map_flatMap⟩⟩
    exact Report.reordered_of_perm ((p.replies image c s).report image c _ []) (hflat.map judged)

/-- Of two evaluators one finds a failure and the other a success; they are asked the other way
round. -/
theorem validate_reordered_swapped :
    let hex := String.ofList (List.replicate 64 'a')
    let about : Attestation := {
      statement := .object [
        ("_type", .text "https://in-toto.io/Statement/v1"), ("predicate", .object []),
        ("predicateType", .text "https://slsa.dev/provenance/v1"),
        ("subject", .list [.object [("digest", .object [("sha256", .text hex)])]])] }
    let v := (replying ("sha256:" ++ hex) (.ok []) (.ok [about]) []).verifier
    let evaluator (groups : List CheckGroup) : Evaluator :=
      { evaluate := fun _ _ _ t d => (.ok groups, t, d) }
    let failing : List CheckGroup := [{ failures := [{ message := "late" }] }]
    let passing : List CheckGroup := [{ successes := [{ message := "built" }] }]
    let c : PolicyContext := ⟨"key", none, [], [], [], [], [], .now ⟨0, 0⟩⟩
    let s := Session.initial ⟨[], 0, []⟩
    let first : Pipeline := ⟨v, [evaluator failing, evaluator passing], jsonWriter⟩
    let second : Pipeline := ⟨v, [evaluator passing, evaluator failing], jsonWriter⟩
    ∃ report report', (first.validate "localhost/app:1" c s).1 = .ok report ∧
      (second.validate "localhost/app:1" c s).1 = .ok report' ∧ report.Reordered report' ∧
      report.policyCheck.map (fun g => g.failures.map RuleResult.message) = [["late"], []] ∧
      report'.policyCheck.map (fun g => g.failures.map RuleResult.message) = [[], ["late"]] := by
  intro hex about v evaluator failing passing c s first second
  let own := [(evaluator failing, failing), (evaluator passing, passing)]
  let own' := [(evaluator passing, passing), (evaluator failing, failing)]
  have hsteady : ∀ x ∈ own, x.1.Steady x.2 := by
    simp only [own, List.forall_mem_cons]
    exact ⟨fun _ _ _ _ _ => rfl, fun _ _ _ _ _ => rfl, List.forall_mem_nil _⟩
  have hsteady' : ∀ x ∈ own', x.1.Steady x.2 := by
    simp only [own', List.forall_mem_cons]
    exact ⟨fun _ _ _ _ _ => rfl, fun _ _ _ _ _ => rfl, List.forall_mem_nil _⟩
  have hstages : first.Stages "localhost/app:1" ⟨"localhost", "app", some "1", none⟩ c s :=
    ⟨rfl, ⟨_, 1, rfl, by decide +kernel⟩, ⟨_, rfl⟩⟩
  have hown' : second.HasOwn ⟨"localhost", "app", some "1", none⟩ c s own' :=
    hasOwn_of_steady rfl hsteady' ⟨_, rfl⟩
  have hsame := validate_reordered rfl rfl (.swap _ _ []) hstages
    (hasOwn_of_steady rfl hsteady hstages.given) hown'
  have hsome : (first.validate "localhost/app:1" c s).1.toOption.isSome = true := by decide +kernel
  have hreported : (first.validate "localhost/app:1" c s).1 ≠ .error .noResults := by
    intro hnone
    rw [hnone] at hsome
    cases hsome
  obtain ⟨report, report', hok, hok', hreordered, hchecks, hchecks'⟩ := hsame.2 hreported
  refine ⟨report, report', hok, hok', hreordered, ?_, ?_⟩
  · rw [hchecks]
    decide +kernel
  · rw [hchecks']
    decide +kernel

end Pipeline
end ImagePolicy
