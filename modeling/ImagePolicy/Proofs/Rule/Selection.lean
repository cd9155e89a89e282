/-
# Selection goes by sets

What a context keeps depends on what its lists hold, not on how: neither the order nor the number
of times counts, and an exclusion may stand in either of the two lists for it (`SelectsLike`).
Excluding more keeps less (`ExcludesMore`), and including more keeps more (`IncludesMore`), but
only if something was included before: a context that includes nothing includes everything, so
what it includes first takes away from what it keeps.

Both orders come down to one thing, that whatever the one context keeps the other keeps too. Then
each bucket of a group that the one leaves is part of the bucket that the other leaves
(`CheckGroup.Within`), because the buckets are filters of the same lists at the same instant.

Key definitions: `PolicyContext.Excludes`, `PolicyContext.Selects`, `SelectsLike`, `ExcludesMore`,
`IncludesMore`, `CheckGroup.Within`.
Key theorems: `kept_iff`, `Classifier.classifyGroup_within`, `Classifier.classify?_congr`,
`Classifier.selection_ordered`, `PolicyContext.lists_of_new`, `selectsLike_of_new`.
-/
import ImagePolicy.Proofs.Policy.Occurrences
import ImagePolicy.Proofs.Policy.Timing
import ImagePolicy.Proofs.Rule.Partition
import Mathlib.Data.List.Basic

namespace ImagePolicy
namespace PolicyContext

/-- A text is excluded, or is not to block, which comes to the same. -/
def Excludes (c : PolicyContext) (m : String) : Prop :=
  m ∈ c.excluded ∨ m ∈ c.nonBlocking

/-- The lists of a context, all of them. -/
structure Lists (c : PolicyContext) (included excluded nonBlocking collections : List String) :
    Prop where
  included : c.included = included
  excluded : c.excluded = excluded
  nonBlocking : c.nonBlocking = nonBlocking
  collections : c.collections = collections

/-- Nothing is selected, which stands for everything. -/
def Open (c : PolicyContext) : Prop :=
  c.included = [] ∧ c.collections = []

/-- A result is selected: by a collection, by a matcher, or because everything is. -/
def Selects (c : PolicyContext) (r : RuleResult) : Prop :=
  r.InCollection c ∨ (∃ m ∈ c.included, r.Matches m) ∨ c.Open

end PolicyContext

variable {c d : PolicyContext} {r : RuleResult} {g : CheckGroup}

/-- A result is kept if it is selected and no matcher of it is excluded. -/
theorem kept_iff : Kept c r ↔ c.Selects r ∧ ∀ m, r.Matches m → ¬c.Excludes m := by
  have hexcludes : (∀ m, r.Matches m → ¬c.Excludes m) ↔
      ∀ m, r.Matches m → m ∉ c.excluded ∧ m ∉ c.nonBlocking := by
    simp only [PolicyContext.Excludes, not_or]
  rw [hexcludes]
  exact ⟨fun h => ⟨h.selected, h.notExcluded⟩, fun h => ⟨h.1, h.2⟩⟩

/-! ### Contexts compared -/

/-- The lists of two contexts hold the same, the two lists of what is excluded taken together. -/
structure SelectsLike (c d : PolicyContext) : Prop where
  included : ∀ m, m ∈ c.included ↔ m ∈ d.included
  collections : ∀ m, m ∈ c.collections ↔ m ∈ d.collections
  excludes : ∀ m, c.Excludes m ↔ d.Excludes m

/-- The second context excludes whatever the first excludes, and includes the same. -/
structure ExcludesMore (c d : PolicyContext) : Prop where
  included : ∀ m, m ∈ c.included ↔ m ∈ d.included
  collections : ∀ m, m ∈ c.collections ↔ m ∈ d.collections
  excludes : ∀ m, c.Excludes m → d.Excludes m

/-- The first context includes something, the second includes all of it, and they exclude the
same. -/
structure IncludesMore (c d : PolicyContext) : Prop where
  notOpen : ¬c.Open
  included : ∀ m ∈ c.included, m ∈ d.included
  collections : ∀ m ∈ c.collections, m ∈ d.collections
  excludes : ∀ m, c.Excludes m ↔ d.Excludes m

theorem SelectsLike.excludesMore (h : SelectsLike c d) : ExcludesMore c d :=
  ⟨h.included, h.collections, fun m => (h.excludes m).mp⟩

theorem SelectsLike.symm (h : SelectsLike c d) : SelectsLike d c :=
  ⟨fun m => (h.included m).symm, fun m => (h.collections m).symm, fun m => (h.excludes m).symm⟩

/-! ### What is kept -/

theorem RuleResult.inCollection_mono (h : ∀ m ∈ c.collections, m ∈ d.collections)
    (hr : r.InCollection c) : r.InCollection d := by
  obtain ⟨items, hitems, name, hname, hmem⟩ := hr
  exact ⟨items, hitems, name, h name hname, hmem⟩

theorem open_iff_of_mem_iff (hincluded : ∀ m, m ∈ c.included ↔ m ∈ d.included)
    (hcollections : ∀ m, m ∈ c.collections ↔ m ∈ d.collections) : c.Open ↔ d.Open := by
  unfold PolicyContext.Open
  simp only [List.eq_nil_iff_forall_not_mem, hincluded, hcollections]

/-- What a context keeps is kept by one that excludes less. -/
theorem ExcludesMore.kept (h : ExcludesMore c d) (hr : Kept d r) : Kept c r := by
  obtain ⟨hselected, hfree⟩ := kept_iff.mp hr
  rw [kept_iff]
  constructor
  · rcases hselected with hcollection | ⟨m, hm, hmatches⟩ | hopen
    · left
      exact RuleResult.inCollection_mono (fun m hm => (h.collections m).mpr hm) hcollection
    · right; left
      exact ⟨m, (h.included m).mpr hm, hmatches⟩
    · right; right
      exact (open_iff_of_mem_iff h.included h.collections).mpr hopen
  · intro m hm hx
    exact hfree m hm (h.excludes m hx)

/-- What a context keeps that includes something is kept by one that includes more. -/
theorem IncludesMore.kept (h : IncludesMore c d) (hr : Kept c r) : Kept d r := by
  obtain ⟨hselected, hfree⟩ := kept_iff.mp hr
  rw [kept_iff]
  constructor
  · rcases hselected with hcollection | ⟨m, hm, hmatches⟩ | hopen
    · left
      exact RuleResult.inCollection_mono h.collections hcollection
    · right; left
      exact ⟨m, h.included m hm, hmatches⟩
    · exact absurd hopen h.notOpen
  · intro m hm hx
    exact hfree m hm ((h.excludes m).mpr hx)

/-- Contexts whose lists hold the same keep the same. -/
theorem SelectsLike.kept_iff (h : SelectsLike c d) : Kept c r ↔ Kept d r :=
  ⟨h.symm.excludesMore.kept, h.excludesMore.kept⟩

/-! ### What is left of groups -/

/-- A group is the other one with less in its buckets of warnings and failures, if anything is
different. -/
structure CheckGroup.Within (g h : CheckGroup) : Prop where
  filename : g.filename = h.filename
  ruleNamespace : g.ruleNamespace = h.ruleNamespace
  successes : g.successes = h.successes
  warnings : g.warnings.Sublist h.warnings
  failures : g.failures.Sublist h.failures

namespace Classifier

/-- **A context that keeps more leaves more in every bucket**, if it judges at the same instant. -/
theorem classifyGroup_within (hinstant : c.instant = d.instant)
    (hkept : ∀ r, Kept c r → Kept d r) (g : CheckGroup) :
    ((ofContext c).classifyGroup g).Within ((ofContext d).classifyGroup g) := by
  have hfilter : ∀ (P : RuleResult → Prop) [DecidablePred P] (rs : List RuleResult),
      (rs.filter fun r => Kept c r ∧ P r).Sublist (rs.filter fun r => Kept d r ∧ P r) := by
    intro P _ rs
    apply List.monotone_filter_right
    intro r hr
    obtain ⟨hkeptc, hP⟩ := of_decide_eq_true hr
    exact decide_eq_true ⟨hkept r hkeptc, hP⟩
  refine ⟨rfl, rfl, rfl, ?_, ?_⟩
  · rw [classifyGroup_warnings, classifyGroup_warnings, hinstant]
    have hwarnings : (g.warnings.filter fun r => Kept c r).Sublist
        (g.warnings.filter fun r => Kept d r) := by
      apply List.monotone_filter_right
      intro r hr
      exact decide_eq_true (hkept r (of_decide_eq_true hr))
    exact hwarnings.append (hfilter (NotYet d.instant) g.failures)
  · rw [classifyGroup_failures, classifyGroup_failures, hinstant]
    exact hfilter (fun r => ¬NotYet d.instant r) g.failures

/-- Contexts that keep the same and judge at the same instant classify alike. -/
theorem classify?_congr (hinstant : c.instant = d.instant) (hkept : ∀ r, Kept c r ↔ Kept d r)
    (gs : List CheckGroup) : (ofContext c).classify? gs = (ofContext d).classify? gs := by
  have hkeeps : (RuleSelection.ofContext c).keeps = (RuleSelection.ofContext d).keeps := by
    funext r
    rw [Bool.eq_iff_iff, RuleSelection.keeps_iff, RuleSelection.keeps_iff]
    exact hkept r
  have hgroup : (ofContext c).classifyGroup = (ofContext d).classifyGroup := by
    funext g
    simp only [classifyGroup, ofContext, hkeeps, hinstant]
  unfold classify?
  rw [hgroup]

/-- **Selection goes by sets, and in one direction.** Of contexts that judge at the same instant:
those whose lists hold the same classify alike, whatever the groups are; one that excludes more
leaves less in every bucket; and one that includes more leaves more in every bucket, if anything
was included before. Successes stay in all cases. -/
theorem selection_ordered (c d : PolicyContext) (hinstant : c.instant = d.instant) :
    (SelectsLike c d →
      ∀ gs, (ofContext c).classify? gs = (ofContext d).classify? gs) ∧
    (ExcludesMore c d →
      ∀ g, ((ofContext d).classifyGroup g).Within ((ofContext c).classifyGroup g)) ∧
    (IncludesMore c d →
      ∀ g, ((ofContext c).classifyGroup g).Within ((ofContext d).classifyGroup g)) := by
  refine ⟨fun hlike => ?_, fun hmore => ?_, fun hmore => ?_⟩
  · exact classify?_congr hinstant fun r => hlike.kept_iff
  · exact classifyGroup_within hinstant.symm fun r => hmore.kept
  · exact classifyGroup_within hinstant fun r => hmore.kept

/-- Four contexts: of the first an exclusion moves to the results that are not to block and an
inclusion is said twice, then it excludes one thing more, then it includes one thing more. -/
theorem selection_ordered_moved :
    let c : PolicyContext := ⟨"key", none, ["a"], ["a.x", "a.y"], [], ["b"], [], .pinned ⟨0, 0⟩⟩
    let moved : PolicyContext :=
      ⟨"other", none, ["a", "a"], ["b", "a.x"], [], ["a.y"], [], .pinned ⟨0, 0⟩⟩
    let stricter : PolicyContext := { c with nonBlocking := ["b", "a.z"] }
    let wider : PolicyContext := { c with collections := ["minimal"] }
    (SelectsLike c moved ∧ ∀ gs, (ofContext c).classify? gs = (ofContext moved).classify? gs) ∧
    (ExcludesMore c stricter ∧
      ∀ g, ((ofContext stricter).classifyGroup g).Within ((ofContext c).classifyGroup g)) ∧
    (IncludesMore c wider ∧
      ∀ g, ((ofContext c).classifyGroup g).Within ((ofContext wider).classifyGroup g)) := by
  intro c moved stricter wider
  have hmoved : SelectsLike c moved := by
    refine ⟨fun m => ?_, fun m => Iff.rfl, fun m => ?_⟩
    · simp [c, moved]
    · simp only [PolicyContext.Excludes, c, moved, List.mem_cons, List.not_mem_nil, or_false]
      tauto
  have hstricter : ExcludesMore c stricter := by
    refine ⟨fun m => Iff.rfl, fun m => Iff.rfl, fun m => ?_⟩
    simp only [PolicyContext.Excludes, c, stricter, List.mem_cons, List.not_mem_nil, or_false]
    tauto
  have hwider : IncludesMore c wider := by
    refine ⟨fun hopen => ?_, fun m hm => hm, fun m hm => ?_, fun m => Iff.rfl⟩
    · cases hopen.1
    · cases hm
  exact ⟨⟨hmoved, (selection_ordered c moved rfl).1 hmoved⟩,
    ⟨hstricter, (selection_ordered c stricter rfl).2.1 hstricter⟩,
    ⟨hwider, (selection_ordered c wider rfl).2.2 hwider⟩⟩

end Classifier

/-- Where nothing was included before, including more may keep less. -/
example :
    let c : PolicyContext := ⟨"key", none, [], [], [], [], [], .pinned ⟨0, 0⟩⟩
    let r : RuleResult := { message := "late", metadata := [("code", .text "b.y")] }
    Kept c r ∧ ¬Kept { c with included := ["a"] } r := by
  decide +kernel

/-! ### Policies -/

/-- **A new context lists what its policy lists**, each text once. -/
theorem PolicyContext.lists_of_new {clock : Instant} {p : PolicySpec} {o : Overrides}
    (h : PolicyContext.new clock p o = .ok c) :
    c.Lists (firstOccurrences (p.configuration.getD {}).included)
      (firstOccurrences (p.configuration.getD {}).excluded)
      (firstOccurrences (p.exceptions.getD {}).nonBlocking)
      (firstOccurrences (p.configuration.getD {}).collections) := by
  obtain ⟨time, -, rfl⟩ := PolicyContext.eq_ofSpec_of_new h
  exact ⟨rfl, rfl, rfl, rfl⟩

/-- The lists of two policies hold the same, as far as they say what is kept. -/
structure PolicySpec.SelectsLike (p q : PolicySpec) : Prop where
  included : ∀ m, m ∈ (p.configuration.getD {}).included ↔ m ∈ (q.configuration.getD {}).included
  collections : ∀ m,
    m ∈ (p.configuration.getD {}).collections ↔ m ∈ (q.configuration.getD {}).collections
  excludes : ∀ m,
    m ∈ (p.configuration.getD {}).excluded ∨ m ∈ (p.exceptions.getD {}).nonBlocking ↔
      m ∈ (q.configuration.getD {}).excluded ∨ m ∈ (q.exceptions.getD {}).nonBlocking

/-- **Policies whose lists hold the same make contexts that select alike**, whatever else the
policies and what the caller puts before them say. -/
theorem selectsLike_of_new {clock clock' : Instant} {p q : PolicySpec} {o o' : Overrides}
    (hc : PolicyContext.new clock p o = .ok c) (hd : PolicyContext.new clock' q o' = .ok d)
    (h : p.SelectsLike q) : SelectsLike c d := by
  have hcl := PolicyContext.lists_of_new hc
  have hdl := PolicyContext.lists_of_new hd
  refine ⟨fun m => ?_, fun m => ?_, fun m => ?_⟩
  · rw [hcl.included, hdl.included, mem_firstOccurrences_iff, mem_firstOccurrences_iff]
    exact h.included m
  · rw [hcl.collections, hdl.collections, mem_firstOccurrences_iff, mem_firstOccurrences_iff]
    exact h.collections m
  · simp only [PolicyContext.Excludes, hcl.excluded, hcl.nonBlocking, hdl.excluded,
      hdl.nonBlocking, mem_firstOccurrences_iff]
    exact h.excludes m

end ImagePolicy
