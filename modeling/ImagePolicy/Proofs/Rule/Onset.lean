/-
# When failures start to block

A failure with an effective date counts as a warning until then. Its place in the group that comes
out says which it is: between the failures around it, or between those of them that became
warnings (`Classifier.Blocks`, `Classifier.Waits`).

Dates are read more freely than in the one form that is documented: what is read are the spellings
of existing dates and times, and among them are some with blanks, a sign or fewer digits
(`EffectiveDate.dates_read`, `EffectiveDate.date_inexact`). A failure whose date is no such spelling
blocks at all times. For a date in the documented form the texts decide: such a failure waits just
if its date is behind the text that the effective time is printed as (`Classifier.onset_ordered`).

Key definitions: `Classifier.Blocks`, `Classifier.Waits`.
Key theorems: `EffectiveDate.dates_read`, `Classifier.blocks_iff`, `Classifier.waits_iff`,
`Classifier.onset_ordered`.
-/
import ImagePolicy.Proofs.Rule.Partition
import ImagePolicy.Proofs.Time.ExactDates

namespace ImagePolicy
namespace EffectiveDate

variable {s : String} {r : RuleResult}

/-- Every date that is read is still to come at some instant. -/
theorem always_effective_iff (hs : r.Says "effective_on" s) :
    (∀ moment, r.effectiveAt moment = true) ↔ parseString? s = none := by
  constructor
  · intro h
    cases hstart : parseString? s with
    | none => rfl
    | some start =>
      have hbefore : (⟨start.second - 1, 0⟩ : Instant) < start :=
        .inl (Int.sub_lt_self _ (by decide))
      have hwaits := effectiveAt_eq_false_iff.mpr ⟨s, start, hs, hstart, hbefore⟩
      rw [h] at hwaits
      cases hwaits
  · intro h moment
    by_contra hblocked
    obtain ⟨text, start, htext, hstart, -⟩ :=
      effectiveAt_eq_false_iff.mp (Bool.eq_false_iff.mpr hblocked)
    cases hs.symm.trans htext
    rw [h] at hstart
    cases hstart

/-- **The dates that are read** are the spellings of existing dates and times, each read as the
instant that it names. Those in the form `YYYY-MM-DDTHH:MM:SSZ` are the ones of twenty characters
without a blank and without a sign in front. A failure blocks at all times just if its date is no
such spelling. -/
theorem dates_read (s : String) :
    (∀ i, parseString? s = some i ↔
      ∃ w : Spelling, w.Valid ∧ w.text = s.toList ∧ w.instant = i) ∧
    (Exact s.toList ↔ (parseString? s).isSome ∧ s.length = 20 ∧
      (∀ c ∈ s.toList, Text.isBlank c = false) ∧ s.toList.head? ≠ some '+' ∧
      s.toList.head? ≠ some '-') ∧
    ∀ r : RuleResult, r.Says "effective_on" s →
      ((∀ moment, r.effectiveAt moment = true) ↔
        ¬∃ w : Spelling, w.Valid ∧ w.text = s.toList) := by
  refine ⟨fun i => parse?_eq_some_iff, ?_, fun r hr => ?_⟩
  · rw [← String.length_toList]
    exact exact_iff
  · rw [always_effective_iff hr, Option.eq_none_iff_forall_ne_some]
    simp only [ne_eq, parseString?, parse?_eq_some_iff, not_exists, not_and]
    exact ⟨fun h w hw htext => h _ w hw htext rfl, fun h _ w hw htext _ => h w hw htext⟩

/-- A date in short fields is read, and a failure with it does not block a second before. -/
theorem date_inexact :
    let s : String := "2022-1-1T0:0:0Z"
    let r : RuleResult := { message := "short", metadata := [("effective_on", .text s)] }
    parseString? s = some ⟨1640995200, 0⟩ ∧ ¬Exact s.toList ∧
      r.effectiveAt ⟨1640995199, 0⟩ = false := by
  refine ⟨by decide +kernel, fun h => ?_, by decide +kernel⟩
  obtain ⟨-, hlength, -⟩ := exact_iff.mp h
  exact absurd hlength (by decide)

end EffectiveDate

namespace Classifier

/-- A failure between others stays a failure, in its place. -/
structure Blocks (k : Classifier) (g : CheckGroup) (before after : List RuleResult)
    (r : RuleResult) : Prop where
  failures : (k.classifyGroup { g with failures := before ++ r :: after }).failures =
    (k.classifyGroup { g with failures := before }).failures ++
      r :: (k.classifyGroup { failures := after }).failures
  warnings : (k.classifyGroup { g with failures := before ++ r :: after }).warnings =
    (k.classifyGroup { g with failures := before }).warnings ++
      (k.classifyGroup { failures := after }).warnings

/-- A failure between others becomes a warning, in its place. -/
structure Waits (k : Classifier) (g : CheckGroup) (before after : List RuleResult)
    (r : RuleResult) : Prop where
  failures : (k.classifyGroup { g with failures := before ++ r :: after }).failures =
    (k.classifyGroup { g with failures := before }).failures ++
      (k.classifyGroup { failures := after }).failures
  warnings : (k.classifyGroup { g with failures := before ++ r :: after }).warnings =
    (k.classifyGroup { g with failures := before }).warnings ++
      r :: (k.classifyGroup { failures := after }).warnings

variable {c : PolicyContext} {g : CheckGroup} {before after : List RuleResult} {r : RuleResult}

theorem waits_of_notYet (hkept : Kept c r) (h : NotYet c.instant r) :
    Waits (ofContext c) g before after r := by
  constructor
  · simp [classifyGroup_failures, hkept, h]
  · simp [classifyGroup_warnings, hkept, h]

theorem blocks_of_not_notYet (hkept : Kept c r) (h : ¬NotYet c.instant r) :
    Blocks (ofContext c) g before after r := by
  constructor
  · simp [classifyGroup_failures, hkept, h]
  · simp [classifyGroup_warnings, hkept, h]

/-- No failure is in both places. -/
theorem Waits.not_blocks {k : Classifier} (h : Waits k g before after r) :
    ¬Blocks k g before after r := by
  intro hblocks
  have hlength := congrArg List.length (h.failures.symm.trans hblocks.failures)
  simp at hlength

/-- A kept failure waits while its date is still to come. -/
theorem waits_iff (hkept : Kept c r) :
    Waits (ofContext c) g before after r ↔ NotYet c.instant r :=
  ⟨fun hwaits => by_contra fun h => hwaits.not_blocks (blocks_of_not_notYet hkept h),
    waits_of_notYet hkept⟩

/-- A kept failure blocks when its date has come. -/
theorem blocks_iff (hkept : Kept c r) :
    Blocks (ofContext c) g before after r ↔ ¬NotYet c.instant r :=
  ⟨fun hblocks h => (waits_of_notYet hkept h).not_blocks hblocks, blocks_of_not_notYet hkept⟩

theorem notYet_iff {moment start : Instant} {s : String} (hs : r.Says "effective_on" s)
    (hstart : EffectiveDate.parseString? s = some start) : NotYet moment r ↔ moment < start := by
  constructor
  · rintro ⟨text, other, htext, hother, h⟩
    cases hs.symm.trans htext
    cases hstart.symm.trans hother
    exact h
  · exact fun h => ⟨s, start, hs, hstart, h⟩

open EffectiveDate (Exact parseString?)

/-- **Exact dates start to block in the order of their texts.** Each of them is read, as an instant
that is printed as that date, and the instants are in the order of the texts. A kept failure with
such a date waits just if the date is behind the text of the effective time in whole seconds, when
that has a year of four digits, and else it blocks; so it blocks if the two are the same. -/
theorem onset_ordered :
    (∀ s : String, Exact s.toList →
      s.length = 20 ∧ ∃ i, parseString? s = some i ∧ i.secondsText = s) ∧
    (∀ (s t : String) (i j : Instant), Exact s.toList → Exact t.toList → parseString? s = some i →
      parseString? t = some j → (i < j ↔ s < t) ∧ (i = j ↔ s = t)) ∧
    ∀ (c : PolicyContext) (g : CheckGroup) (before after : List RuleResult) (r : RuleResult)
      (s : String), c.instant.Valid → 0 ≤ c.instant.date.year → c.instant.date.year ≤ 9999 →
      Kept c r → r.Says "effective_on" s → Exact s.toList →
      (Waits (ofContext c) g before after r ↔ c.instant.secondsText < s) ∧
      (Blocks (ofContext c) g before after r ↔ s ≤ c.instant.secondsText) ∧
      (s = c.instant.secondsText → Blocks (ofContext c) g before after r) := by
  have hprinted : ∀ {s : String} {i : Instant}, Exact s.toList → parseString? s = some i →
      i.secondsText = s := by
    intro s i hs hi
    obtain ⟨j, hj, htext⟩ := hs.exists_parse?
    cases hi.symm.trans hj
    rw [Instant.secondsText, htext, String.ofList_toList]
  refine ⟨fun s hs => ?_, fun s t i j hs ht hi hj => ⟨?_, ?_⟩,
    fun c g before after r s hvalid h0 h1 hkept hsays hs => ?_⟩
  · obtain ⟨i, hi, -⟩ := hs.exists_parse?
    have hlength := (EffectiveDate.exact_iff.mp hs).2.1
    exact ⟨by rw [← String.length_toList, hlength], i, hi, hprinted hs hi⟩
  · rw [String.lt_iff]
    exact hs.lt_iff ht hi hj
  · constructor
    · rintro rfl
      rw [← hprinted hs hi, hprinted ht hj]
    · rintro rfl
      exact Option.some.inj (hi.symm.trans hj)
  · obtain ⟨start, hstart, -⟩ := hs.exists_parse?
    have hnot : NotYet c.instant r ↔ c.instant.secondsText < s := by
      rw [notYet_iff hsays hstart, hs.lt_start_iff hstart hvalid h0 h1, String.lt_iff,
        Instant.secondsText, String.toList_ofList]
    have hblocks : Blocks (ofContext c) g before after r ↔ s ≤ c.instant.secondsText := by
      rw [blocks_iff hkept, hnot]
      exact Iff.rfl
    refine ⟨(waits_iff hkept).trans hnot, hblocks, ?_⟩
    rintro rfl
    exact hblocks.mpr (String.le_refl _)

/-- Half a second after midnight a failure since midnight blocks, and one from the next second on
waits. -/
theorem onset_ordered_midnight :
    let c : PolicyContext := ⟨"key", none, [], [], [], [], [], .pinned ⟨1654041600, 500000000⟩⟩
    let due : RuleResult :=
      { message := "due", metadata := [("effective_on", .text "2022-06-01T00:00:00Z")] }
    let next : RuleResult :=
      { message := "next", metadata := [("effective_on", .text "2022-06-01T00:00:01Z")] }
    c.instant.secondsText = "2022-06-01T00:00:00Z" ∧
      Blocks (ofContext c) {} [] [next] due ∧ Waits (ofContext c) {} [due] [] next := by
  intro c due next
  have htext : c.instant.secondsText = "2022-06-01T00:00:00Z" := by decide +kernel
  have hlater : (⟨1654041601, 0⟩ : Instant).secondsText = "2022-06-01T00:00:01Z" := by
    decide +kernel
  have hvalid : c.instant.Valid := .inl (by decide)
  have hfirst : 0 ≤ c.instant.date.year := by decide +kernel
  have hlast : c.instant.date.year ≤ 9999 := by decide +kernel
  -- what is printed is exact
  have hdue : Exact "2022-06-01T00:00:00Z".toList := by
    rw [← htext, Instant.secondsText, String.toList_ofList]
    exact (EffectiveDate.exact_renderSeconds hvalid hfirst hlast).1
  have hnext : Exact "2022-06-01T00:00:01Z".toList := by
    rw [← hlater, Instant.secondsText, String.toList_ofList]
    exact (EffectiveDate.exact_renderSeconds (.inl (by decide)) (by decide +kernel)
      (by decide +kernel)).1
  have hordered := onset_ordered.2.2 c {}
  refine ⟨htext, ?_, ?_⟩
  · exact (hordered [] [next] due _ hvalid hfirst hlast (by decide +kernel) rfl hdue).2.2
      htext.symm
  · refine (hordered [due] [] next _ hvalid hfirst hlast (by decide +kernel) rfl hnext).1.mpr ?_
    rw [htext]
    decide +kernel

end Classifier
end ImagePolicy
