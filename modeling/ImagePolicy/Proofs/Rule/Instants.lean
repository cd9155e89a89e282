/-
# Time moves results one way

Which results of a group are kept does not depend on the instant at which they are judged. The
instant only decides which of the kept failures count as warnings, and a failure that blocks at an
instant blocks at every later one (`RuleResult.effectiveAt_mono`). So from an instant to a later one
a group changes in a single way: some of its warnings become failures (`CheckGroup.Matures`). Since
no result comes or goes, whether there is anything to go by does not depend on the instant either.

Key definitions: `CheckGroup.results`, `CheckGroup.Matures`.
Key theorems: `RuleResult.effectiveAt_mono`, `Classifier.classifyGroup_matures`,
`Classifier.classify?_eq_none_congr`, `Classifier.classification_matures`.
-/
import ImagePolicy.Proofs.Rule.Partition
import ImagePolicy.Proofs.Time.Order
import Mathlib.Data.List.Forall2
import Mathlib.Data.List.Perm.Basic

namespace ImagePolicy

variable {s : RuleSelection} {t u : Instant} {r : RuleResult} {g early late : CheckGroup}

/-- What blocks at an instant blocks at every later one. -/
theorem RuleResult.effectiveAt_mono (h : t ≤ u) (ht : r.effectiveAt t = true) :
    r.effectiveAt u = true := by
  unfold effectiveAt at ht ⊢
  split at ht
  · exact decide_eq_true (Instant.le_trans (of_decide_eq_true ht) h)
  · rfl

namespace CheckGroup

/-- All results of a group, each as often as it is there. -/
def results (g : CheckGroup) : List RuleResult :=
  g.successes ++ g.warnings ++ g.failures

/-- A group as it is judged at an instant, and as it is judged at a later one: warnings may have
become failures, and nothing else is different. -/
structure Matures (t : Instant) (early late : CheckGroup) : Prop where
  filename : early.filename = late.filename
  ruleNamespace : early.ruleNamespace = late.ruleNamespace
  successes : early.successes = late.successes
  failures : early.failures.Sublist late.failures
  warnings : late.warnings.Sublist early.warnings
  perm : (early.warnings ++ early.failures).Perm (late.warnings ++ late.failures)
  /-- Of the later failures those were failures before that blocked already. -/
  already : early.failures = late.failures.filter fun r => r.effectiveAt t

/-- No result comes or goes. -/
theorem Matures.results_perm (h : Matures t early late) : early.results.Perm late.results := by
  rw [results, results, List.append_assoc, List.append_assoc, h.successes]
  exact h.perm.append_left _

/-- What has no failures later has none before. -/
theorem Matures.failures_eq_nil (h : Matures t early late) (hlate : late.failures = []) :
    early.failures = [] := by
  have hsub := h.failures
  rw [hlate] at hsub
  exact List.sublist_nil.mp hsub

end CheckGroup

namespace Classifier

/-- **A group that is judged later** has all the failures that it had before, and what it has of
them more it has of warnings less. -/
theorem classifyGroup_matures (h : t ≤ u) (g : CheckGroup) :
    CheckGroup.Matures t ((mk s t).classifyGroup g) ((mk s u).classifyGroup g) := by
  have hblocks : ∀ r : RuleResult, r.effectiveAt t = true → r.effectiveAt u = true := fun _ =>
    RuleResult.effectiveAt_mono h
  refine ⟨rfl, rfl, rfl, ?_, ?_, ?_, ?_⟩
  · exact List.monotone_filter_right _ hblocks
  · refine (List.Sublist.refl _).append (List.monotone_filter_right _ fun r hr => ?_)
    rw [Bool.not_eq_true'] at hr ⊢
    exact Bool.eq_false_iff.mpr fun hblocked => Bool.eq_false_iff.mp hr (hblocks r hblocked)
  · exact (classifyGroup_keeps (mk s t) g).trans (classifyGroup_keeps (mk s u) g).symm
  · have hsame : ∀ rs : List RuleResult,
        (rs.filter fun r => r.effectiveAt u).filter (fun r => r.effectiveAt t) =
          rs.filter fun r => r.effectiveAt t := by
      intro rs
      rw [List.filter_filter]
      refine List.filter_congr fun r _ => ?_
      rw [Bool.eq_iff_iff, Bool.and_eq_true]
      exact ⟨And.left, fun ht => ⟨ht, hblocks r ht⟩⟩
    exact (hsame _).symm

/-- Whether there is anything to go by does not depend on the instant. -/
theorem classify?_eq_none_congr (s : RuleSelection) (gs : List CheckGroup) (t u : Instant) :
    (mk s t).classify? gs = none ↔ (mk s u).classify? gs = none := by
  simp only [classify?_eq_none_iff_total, total_classifyGroup]

/-- **Time moves results one way.** The groups that are left at one instant and at another hold the
same results, and if nothing is left at the one then nothing is at the other. If the first instant
is not after the second, each group has become what it is by warnings that turned into failures,
which are those that did not block at the first; so where nothing fails at the second, nothing fails
at the first. -/
theorem classification_matures (s : RuleSelection) (gs : List CheckGroup) (t u : Instant) :
    ((mk s t).classify? gs = none ↔ (mk s u).classify? gs = none) ∧
    ∀ before after, (mk s t).classify? gs = some before → (mk s u).classify? gs = some after →
      (before.flatMap CheckGroup.results).Perm (after.flatMap CheckGroup.results) ∧
      (t ≤ u → List.Forall₂ (CheckGroup.Matures t) before after ∧
        ((∀ g ∈ after, g.failures = []) → ∀ g ∈ before, g.failures = [])) := by
  refine ⟨classify?_eq_none_congr s gs t u, fun before after hbefore hafter => ?_⟩
  obtain rfl := eq_map_of_classify? hbefore
  obtain rfl := eq_map_of_classify? hafter
  constructor
  · rw [List.flatMap_map, List.flatMap_map]
    refine List.Perm.flatMap_left gs fun g _ => ?_
    by_cases h : t ≤ u
    · exact (classifyGroup_matures h g).results_perm
    · exact (classifyGroup_matures (Instant.le_of_not_le h) g).results_perm.symm
  · intro h
    have hmatures : List.Forall₂ (CheckGroup.Matures t) (gs.map (mk s t).classifyGroup)
        (gs.map (mk s u).classifyGroup) := by
      rw [List.forall₂_map_left_iff, List.forall₂_map_right_iff, List.forall₂_same]
      exact fun g _ => classifyGroup_matures h g
    refine ⟨hmatures, ?_⟩
    simp only [List.forall_mem_map]
    exact fun hafter g hg => (classifyGroup_matures h g).failures_eq_nil (hafter g hg)

/-- A failure that starts to block at the later of two instants, a nanosecond after the other, and
one that does not say when. -/
theorem classification_matures_onset :
    let s : RuleSelection := ⟨[wildcard], [], []⟩
    let gs : List CheckGroup := [{
      failures := [
        { message := "late", metadata := [("effective_on", .text "2022-06-01T00:00:00Z")] },
        { message := "vague", metadata := [("effective_on", .text "June")] }] }]
    let t : Instant := ⟨1654041599, 999999999⟩
    let u : Instant := ⟨1654041600, 0⟩
    let before := gs.map (mk s t).classifyGroup
    let after := gs.map (mk s u).classifyGroup
    (mk s t).classify? gs = some before ∧ (mk s u).classify? gs = some after ∧ t ≤ u ∧
    before.map (fun g => (g.warnings.map RuleResult.message, g.failures.map RuleResult.message)) =
      [(["late"], ["vague"])] ∧
    after.map (fun g => (g.warnings.map RuleResult.message, g.failures.map RuleResult.message)) =
      [([], ["late", "vague"])] ∧
    List.Forall₂ (CheckGroup.Matures t) before after := by
  intro s gs t u before after
  have hbefore : (mk s t).classify? gs = some before :=
    classify?_of_total_ne_zero (by decide +kernel)
  have hafter : (mk s u).classify? gs = some after :=
    classify?_of_total_ne_zero (by decide +kernel)
  have htu : t ≤ u := by decide
  have hmatures := (classification_matures s gs t u).2 before after hbefore hafter
  exact ⟨hbefore, hafter, htu, by decide +kernel, by decide +kernel, (hmatures.2 htu).1⟩

end Classifier
end ImagePolicy
