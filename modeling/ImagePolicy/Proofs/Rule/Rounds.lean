/-
# Classification settles at once

What a classifier leaves of a group it does not touch again: all of it is kept, and every failure in
it blocks. That is all there is to being left alone (`Classifier.classifyGroup_eq_self_iff`), so a
demoted failure, which comes back as a warning, stays one, and further rounds change nothing.

A list of groups is classified group by group. Only whether there is an outcome is decided for the
list as a whole, by whether anything is left in some group; groups of which nothing is left stand
empty in their places.

Key definitions: `Classifier.Settled`, `Classifier.rounds`.
Key theorems: `Classifier.classifyGroup_eq_self_iff`, `Classifier.isSome_classify?_append`,
`Classifier.classification_settles`.
-/
import ImagePolicy.Proofs.Rule.Partition

namespace ImagePolicy
namespace Classifier

variable {k : Classifier} {g : CheckGroup} {xs ys out : List CheckGroup}

/-! ### Groups -/

/-- A group of which nothing is dropped or demoted. -/
structure Settled (k : Classifier) (g : CheckGroup) : Prop where
  warnings : ∀ r ∈ g.warnings, k.selection.keeps r = true
  failures : ∀ r ∈ g.failures, k.selection.keeps r = true
  blocking : ∀ r ∈ g.failures, r.effectiveAt k.instant = true

theorem settled_classifyGroup (k : Classifier) (g : CheckGroup) :
    k.Settled (k.classifyGroup g) := by
  refine ⟨fun r hr => ?_, fun r hr => ?_, fun r hr => (List.mem_filter.mp hr).2⟩
  · rcases List.mem_append.mp hr with hwarning | hdemoted
    · exact (List.mem_filter.mp hwarning).2
    · exact (List.mem_filter.mp (List.mem_filter.mp hdemoted).1).2
  · exact (List.mem_filter.mp (List.mem_filter.mp hr).1).2

/-- **A classifier leaves a group as it is** if all of it is kept and its failures block, and only
then. -/
theorem classifyGroup_eq_self_iff : k.classifyGroup g = g ↔ k.Settled g := by
  constructor
  · intro h
    rw [← h]
    exact settled_classifyGroup k g
  · intro h
    have hwarnings : g.warnings.filter k.selection.keeps = g.warnings :=
      List.filter_eq_self.mpr h.warnings
    have hfailures : g.failures.filter k.selection.keeps = g.failures :=
      List.filter_eq_self.mpr h.failures
    have hblocking : (g.failures.filter fun r => r.effectiveAt k.instant) = g.failures :=
      List.filter_eq_self.mpr h.blocking
    have hdemoted : (g.failures.filter fun r => !r.effectiveAt k.instant) = [] := by
      rw [List.filter_eq_nil_iff]
      intro r hr
      simp [h.blocking r hr]
    rw [classifyGroup, hwarnings, hfailures, hblocking, hdemoted, List.append_nil]

/-- What is classified already is not changed by classifying it again. -/
theorem classifyGroup_classifyGroup (k : Classifier) (g : CheckGroup) :
    k.classifyGroup (k.classifyGroup g) = k.classifyGroup g :=
  classifyGroup_eq_self_iff.mpr (settled_classifyGroup k g)

/-! ### Lists of groups -/

/-- Classification done so many times, each time of what the time before has left. -/
def rounds (k : Classifier) : Nat → List CheckGroup → Option (List CheckGroup)
  | 0, gs => some gs
  | n + 1, gs => (k.classify? gs).bind (k.rounds n)

/-- **An outcome is its own outcome.** -/
theorem classify?_of_classify? (h : k.classify? xs = some out) : k.classify? out = some out := by
  have hout := eq_map_of_classify? h
  have hsame : out.map k.classifyGroup = out := by
    rw [hout, List.map_map]
    exact List.map_congr_left fun g _ => classifyGroup_classifyGroup k g
  have hleft : total (out.map k.classifyGroup) ≠ 0 := by
    intro hzero
    rw [hsame, hout] at hzero
    rw [classify?, if_pos hzero] at h
    cases h
  rw [classify?_of_total_ne_zero hleft, hsame]

/-- All rounds after the first change nothing. -/
theorem rounds_of_classify? (h : k.classify? xs = some out) : ∀ n, k.rounds n out = some out
  | 0 => rfl
  | n + 1 => by
    rw [rounds, classify?_of_classify? h, Option.bind_some]
    exact rounds_of_classify? h n

theorem isSome_classify?_iff :
    (k.classify? xs).isSome = true ↔ ∃ g ∈ xs, (k.classifyGroup g).total ≠ 0 := by
  rw [Option.isSome_iff_ne_none, ne_eq, classify?_eq_none_iff_total]
  simp only [Classical.not_forall, exists_prop, ne_eq]

/-- Groups have an outcome together if some of them have one on their own. -/
theorem isSome_classify?_append : (k.classify? (xs ++ ys)).isSome = true ↔
    (k.classify? xs).isSome = true ∨ (k.classify? ys).isSome = true := by
  simp only [isSome_classify?_iff, List.mem_append, or_and_right, exists_or]

/-- **Classification settles at once and goes group by group.** An outcome is not changed by any
further rounds. Groups that are put together have an outcome if those on one side have one, and it
is the groups of the one side, each classified, and then those of the other. And there is none just
if no group has a success, or a warning or failure that is kept. -/
theorem classification_settles (c : PolicyContext) (xs ys : List CheckGroup) :
    (∀ out, (ofContext c).classify? xs = some out →
      (ofContext c).classify? out = some out ∧ ∀ n, (ofContext c).rounds n out = some out) ∧
    (((ofContext c).classify? (xs ++ ys)).isSome = true ↔
      ((ofContext c).classify? xs).isSome = true ∨ ((ofContext c).classify? ys).isSome = true) ∧
    (∀ out, (ofContext c).classify? xs = some out → out = xs.map (ofContext c).classifyGroup) ∧
    (∀ out, (ofContext c).classify? (xs ++ ys) = some out →
      out = xs.map (ofContext c).classifyGroup ++ ys.map (ofContext c).classifyGroup) ∧
    ((ofContext c).classify? xs = none ↔
      ∀ g ∈ xs, g.successes = [] ∧ ∀ r ∈ g.warnings ++ g.failures, ¬Kept c r) := by
  refine ⟨fun out h => ⟨classify?_of_classify? h, rounds_of_classify? h⟩, isSome_classify?_append,
    fun out h => eq_map_of_classify? h, fun out h => ?_, ?_⟩
  · rw [← List.map_append]
    exact eq_map_of_classify? h
  · simp only [classify?_eq_none_iff, Tells, not_exists, not_and, not_or, ne_eq,
      Decidable.not_not]

/-- A failure that does not block yet, next to a group of which nothing is left. -/
theorem classification_settles_demoted :
    let c : PolicyContext := ⟨"key", none, [], ["b"], [], [], [], .pinned ⟨1654041600, 0⟩⟩
    let late : RuleResult := {
      message := "late"
      metadata := [("code", .text "a.x"), ("effective_on", .text "2023-01-01T00:00:00Z")] }
    let dropped : RuleResult := { message := "dropped", metadata := [("code", .text "b.y")] }
    let xs : List CheckGroup := [{ failures := [late] }]
    let ys : List CheckGroup := [{ filename := "other", failures := [dropped] }]
    let out : List CheckGroup := [{ warnings := [late] }]
    (ofContext c).classify? xs = some out ∧ (ofContext c).classify? ys = none ∧
    (ofContext c).classify? out = some out ∧
    (ofContext c).classify? (xs ++ ys) = some (out ++ [{ filename := "other" }]) := by
  intro c late dropped xs ys out
  have hkept : (ofContext c).selection.keeps late = true := by decide +kernel
  have hdemoted : late.effectiveAt (ofContext c).instant = false := by decide +kernel
  have hdropped : (ofContext c).selection.keeps dropped = false := by decide +kernel
  have hxs : xs.map (ofContext c).classifyGroup = out := by
    simp [xs, out, classifyGroup, hkept, hdemoted]
  have hys : ys.map (ofContext c).classifyGroup = [{ filename := "other" }] := by
    simp [ys, classifyGroup, hdropped]
  have hfirst : (ofContext c).classify? xs = some out := by
    rw [classify?_of_total_ne_zero (by rw [hxs]; decide), hxs]
  have hempty : (ofContext c).classify? ys = none := by
    rw [classify?, hys]
    rfl
  obtain ⟨hsettled, hsome, -, hjoined, -⟩ := classification_settles c xs ys
  refine ⟨hfirst, hempty, (hsettled out hfirst).1, ?_⟩
  obtain ⟨joined, h⟩ := Option.isSome_iff_exists.mp (hsome.mpr (.inl (by rw [hfirst]; rfl)))
  rw [h, hjoined joined h, hxs, hys]

end Classifier
end ImagePolicy
