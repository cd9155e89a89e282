/-
# Classification is a partition

A group that is classified loses what its context does not keep, and nothing else. What is left of
its failures is split by the effective time: those that block already stay, in order, and those
that do not yet come behind the warnings, in order. So each result that is kept is found once in
the group for each time it was there before, and it is found in one place.

Key definitions: `Classifier.Partitioned`, `Classifier.Tells`.
Key theorems: `Classifier.classifyGroup_failures`, `Classifier.classifyGroup_warnings`,
`Classifier.classifyGroup_keeps`, `Classifier.classifyGroup_partition`,
`Classifier.total_classifyGroup`, `Classifier.classify?_eq_some_iff`.
-/
import ImagePolicy.Proofs.Rule.Reading

namespace ImagePolicy
namespace Classifier

variable (c : PolicyContext) (g : CheckGroup)

/-- A group as a context leaves it: what is kept of it, each result in one place. -/
structure Partitioned (c : PolicyContext) (g out : CheckGroup) : Prop where
  filename : out.filename = g.filename
  ruleNamespace : out.ruleNamespace = g.ruleNamespace
  successes : out.successes = g.successes
  failures : out.failures = g.failures.filter fun r => Kept c r ∧ ¬NotYet c.instant r
  warnings : out.warnings = g.warnings.filter (fun r => Kept c r) ++
    g.failures.filter fun r => Kept c r ∧ NotYet c.instant r
  perm : (out.warnings ++ out.failures).Perm ((g.warnings ++ g.failures).filter fun r => Kept c r)

theorem keeps_eq : (RuleSelection.ofContext c).keeps = fun r => decide (Kept c r) := by
  funext r
  rw [Bool.eq_iff_iff, RuleSelection.keeps_iff, decide_eq_true_iff]

theorem effectiveAt_eq : (fun r : RuleResult => r.effectiveAt c.instant) =
    fun r => decide (¬NotYet c.instant r) := by
  funext r
  rw [Bool.eq_iff_iff, decide_eq_true_iff, ← effectiveAt_eq_false_iff, Bool.not_eq_false]

theorem filter_kept (P : RuleResult → Prop) [DecidablePred P] (rs : List RuleResult) :
    (rs.filter fun r => Kept c r).filter (fun r => P r) = rs.filter fun r => Kept c r ∧ P r := by
  rw [List.filter_filter]
  refine List.filter_congr fun r _ => ?_
  rw [Bool.decide_and, Bool.and_comm]

/-- The failures that stay are those that are kept and block already. -/
theorem classifyGroup_failures : ((ofContext c).classifyGroup g).failures =
    g.failures.filter fun r => Kept c r ∧ ¬NotYet c.instant r := by
  simp only [classifyGroup, ofContext, keeps_eq, effectiveAt_eq]
  exact filter_kept c (fun r => ¬NotYet c.instant r) g.failures

/-- The failures that do not block yet come behind the warnings. -/
theorem classifyGroup_warnings : ((ofContext c).classifyGroup g).warnings =
    g.warnings.filter (fun r => Kept c r) ++
      g.failures.filter fun r => Kept c r ∧ NotYet c.instant r := by
  have hnot : (fun r : RuleResult => !r.effectiveAt c.instant) =
      fun r => decide (NotYet c.instant r) := by
    funext r
    rw [Bool.eq_iff_iff, decide_eq_true_iff, Bool.not_eq_true', effectiveAt_eq_false_iff]
  simp only [classifyGroup, ofContext, keeps_eq, hnot]
  rw [filter_kept c (NotYet c.instant) g.failures]

/-- Up to order, the warnings and failures that are left are the ones that the selection keeps,
whatever the instant is. -/
theorem classifyGroup_keeps (k : Classifier) (g : CheckGroup) :
    ((k.classifyGroup g).warnings ++ (k.classifyGroup g).failures).Perm
      ((g.warnings ++ g.failures).filter k.selection.keeps) := by
  have hsplit : ∀ rs : List RuleResult, (rs.filter (fun r => !r.effectiveAt k.instant) ++
      rs.filter fun r => r.effectiveAt k.instant).Perm rs := fun rs =>
    List.perm_append_comm.trans (List.filter_append_perm _ rs)
  rw [List.filter_append, classifyGroup, List.append_assoc]
  exact (hsplit _).append_left _

/-- Up to order, the warnings and failures that are left are the ones that are kept. -/
theorem classifyGroup_perm :
    (((ofContext c).classifyGroup g).warnings ++ ((ofContext c).classifyGroup g).failures).Perm
      ((g.warnings ++ g.failures).filter fun r => Kept c r) := by
  rw [← keeps_eq]
  exact classifyGroup_keeps (ofContext c) g

/-- **Classification is an exact partition.** File name, namespace and successes of a group stay
as they are. Its failures become those that are kept and block already, its warnings those that
are kept and, behind them, the kept failures that do not block yet, all in their order; and no
result is lost, doubled or taken up that is not kept. -/
theorem classifyGroup_partition : Partitioned c g ((ofContext c).classifyGroup g) where
  filename := rfl
  ruleNamespace := rfl
  successes := rfl
  failures := classifyGroup_failures c g
  warnings := classifyGroup_warnings c g
  perm := classifyGroup_perm c g

/-! ### All groups -/

/-- A group holds something to go by: a success, or a warning or failure that is kept. -/
def Tells (c : PolicyContext) (g : CheckGroup) : Prop :=
  g.successes ≠ [] ∨ ∃ r ∈ g.warnings ++ g.failures, Kept c r

theorem total_eq_zero_iff {gs : List CheckGroup} : total gs = 0 ↔ ∀ g ∈ gs, g.total = 0 := by
  have hfold : ∀ (gs : List CheckGroup) (n : Nat),
      gs.foldl (fun n g => n + g.total) n = 0 ↔ n = 0 ∧ ∀ g ∈ gs, g.total = 0 := by
    intro gs
    induction gs with
    | nil => simp
    | cons g gs ih =>
      intro n
      rw [List.foldl_cons, ih, List.forall_mem_cons, Nat.add_eq_zero_iff, and_assoc]
  simpa [total] using hfold gs 0

/-- What is left of a group counts the same whatever the instant is. -/
theorem total_classifyGroup (k : Classifier) (g : CheckGroup) : (k.classifyGroup g).total =
    g.successes.length + ((g.warnings ++ g.failures).filter k.selection.keeps).length := by
  rw [← (classifyGroup_keeps k g).length_eq, List.length_append, CheckGroup.total, Nat.add_assoc]
  rfl

theorem classify?_eq_none_iff_total {k : Classifier} {gs : List CheckGroup} :
    k.classify? gs = none ↔ ∀ g ∈ gs, (k.classifyGroup g).total = 0 := by
  have htotal : total (gs.map k.classifyGroup) = 0 ↔ ∀ g ∈ gs, (k.classifyGroup g).total = 0 := by
    rw [total_eq_zero_iff, List.forall_mem_map]
  rw [← htotal, classify?]
  simp only [ite_eq_left_iff, reduceCtorEq, imp_false, Decidable.not_not]

theorem classify?_of_total_ne_zero {k : Classifier} {gs : List CheckGroup}
    (h : total (gs.map k.classifyGroup) ≠ 0) :
    k.classify? gs = some (gs.map k.classifyGroup) :=
  if_neg h

theorem eq_map_of_classify? {k : Classifier} {gs out : List CheckGroup}
    (h : k.classify? gs = some out) : out = gs.map k.classifyGroup := by
  simp only [classify?, Option.ite_none_left_eq_some, Option.some.injEq] at h
  exact h.2.symm

theorem classifyGroup_total_ne_zero_iff :
    ((ofContext c).classifyGroup g).total ≠ 0 ↔ Tells c g := by
  have hrest : ((g.warnings ++ g.failures).filter (ofContext c).selection.keeps).length ≠ 0 ↔
      ∃ r ∈ g.warnings ++ g.failures, Kept c r := by
    rw [← Nat.pos_iff_ne_zero, List.length_pos_iff_exists_mem]
    simp only [List.mem_filter, ofContext, RuleSelection.keeps_iff]
  have hsucc : g.successes.length ≠ 0 ↔ g.successes ≠ [] := by
    rw [ne_eq, List.length_eq_zero_iff]
  unfold Tells
  rw [← hrest, ← hsucc, total_classifyGroup]
  omega

theorem classify?_eq_none_iff {gs : List CheckGroup} :
    (ofContext c).classify? gs = none ↔ ¬∃ g ∈ gs, Tells c g := by
  rw [classify?_eq_none_iff_total]
  simp only [← classifyGroup_total_ne_zero_iff, not_exists, not_and, ne_eq, Decidable.not_not]

/-- **Classification has an outcome if there is something to go by in some group**, and then every
group is classified. -/
theorem classify?_eq_some_iff {gs out : List CheckGroup} : (ofContext c).classify? gs = some out ↔
    (∃ g ∈ gs, Tells c g) ∧ out = gs.map (ofContext c).classifyGroup := by
  constructor
  · intro h
    refine ⟨Classical.not_not.mp fun hnone => ?_, eq_map_of_classify? h⟩
    rw [(classify?_eq_none_iff c).mpr hnone] at h
    cases h
  · rintro ⟨hex, rfl⟩
    cases hout : (ofContext c).classify? gs with
    | none => exact absurd hex ((classify?_eq_none_iff c).mp hout)
    | some out => rw [eq_map_of_classify? hout]

end Classifier
end ImagePolicy
