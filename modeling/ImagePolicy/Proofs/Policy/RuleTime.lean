/-
# The time that rules see

Rules read the effective time as a number of nanoseconds, in a range of 64 bits. Where the number
of nanoseconds of an instant is in the range, it is what they read; beyond the end of the range
they read the end; but before its start they read the end too, where the start would be due
(`RuleConfig.Shown`, `RuleConfig.shown_iff`).

So an instant before the range looks later than any other. There is one more place where a later
instant can have a lower number: a leap second has no nanoseconds of its own, they are counted on
into the second behind it, and there they meet the ones of that second (`Instant.Overtakes`,
`Instant.nanoseconds_lt_iff`). Apart from these two the number follows the order of instants by
which failures are judged (`RuleConfig.followed_iff`).

Key definitions: `Instant.nanoseconds`, `Instant.Overtakes`, `RuleConfig.Shown`,
`RuleConfig.Followed`.
Key theorems: `Instant.nanoseconds_lt_iff`, `RuleConfig.whenNs_eq`, `RuleConfig.shown_iff`,
`RuleConfig.whenNs_le_iff`, `RuleConfig.followed_iff`, `PolicyContext.valid_of_new`.
-/
import ImagePolicy.Policy.RuleConfig
import ImagePolicy.Proofs.Policy.Timing
import ImagePolicy.Proofs.Time.WholeSeconds

namespace ImagePolicy
namespace Instant

variable {i j : Instant}

/-- The nanoseconds since the epoch; those of a leap second go on behind the second it is in. -/
def nanoseconds (i : Instant) : Int :=
  i.second * nanosPerSecond + i.nano

theorem nanoseconds?_eq_some_iff {n : Int} : i.nanoseconds? = some n ↔
    i.nanoseconds = n ∧ -9223372036854775808 ≤ n ∧ n ≤ 9223372036854775807 := by
  have hfits : inInt64 i.nanoseconds = true ↔
      -9223372036854775808 ≤ i.nanoseconds ∧ i.nanoseconds ≤ 9223372036854775807 := by
    simp only [inInt64, Bool.and_eq_true, decide_eq_true_iff]
    omega
  show (if inInt64 i.nanoseconds then some i.nanoseconds else none) = some n ↔ _
  by_cases h : inInt64 i.nanoseconds = true
  · rw [if_pos h, Option.some.injEq]
    have := hfits.mp h
    constructor
    · rintro rfl
      exact ⟨rfl, this⟩
    · exact And.left
  · rw [if_neg h]
    constructor
    · intro hn
      cases hn
    · rintro ⟨rfl, hn⟩
      exact absurd (hfits.mpr hn) h

/-- A leap second is counted past an instant of the second that follows it. -/
structure Overtakes (i j : Instant) : Prop where
  next : j.second = i.second + 1
  past : j.nano + nanosPerSecond < i.nano

/-- **Of two instants the later one has fewer nanoseconds just if a leap second overtakes it.** -/
theorem nanoseconds_lt_iff (hi : i.Valid) (h : i ≤ j) :
    j.nanoseconds < i.nanoseconds ↔ i.Overtakes j := by
  have hnano : i.nano < 2 * nanosPerSecond := by
    unfold Valid nanosPerSecond at *
    omega
  rw [le_def] at h
  unfold nanoseconds nanosPerSecond at *
  constructor
  · intro hlt
    have hnext : j.second = i.second + 1 := by omega
    have hpast : j.nano + 1000000000 < i.nano := by omega
    exact ⟨hnext, hpast⟩
  · rintro ⟨hnext, hpast⟩
    have hpast : j.nano + 1000000000 < i.nano := hpast
    omega

/-- Half of a leap second is counted past the midnight that ends it. -/
example : Overtakes ⟨1483228799, 1500000000⟩ ⟨1483228800, 0⟩ :=
  ⟨by decide, by decide⟩

end Instant

namespace RuleConfig

variable {c d : PolicyContext}

/-- The least signed 64-bit integer. -/
def leastWhen : Int := -9223372036854775808

/-- Rules read the nanoseconds if they are in the range, and the end of the range if not. -/
theorem whenNs_eq (c : PolicyContext) : (ofContext c).whenNs =
    if leastWhen ≤ c.instant.nanoseconds ∧ c.instant.nanoseconds ≤ greatestWhen
    then c.instant.nanoseconds else greatestWhen := by
  show c.instant.nanoseconds?.getD greatestWhen = _
  by_cases h : leastWhen ≤ c.instant.nanoseconds ∧ c.instant.nanoseconds ≤ greatestWhen
  · rw [if_pos h, Instant.nanoseconds?_eq_some_iff.mpr ⟨rfl, h⟩]
    rfl
  · have hnone : c.instant.nanoseconds? = none := by
      cases hn : c.instant.nanoseconds? with
      | none => rfl
      | some n =>
        obtain ⟨rfl, hfits⟩ := Instant.nanoseconds?_eq_some_iff.mp hn
        exact absurd hfits h
    rw [if_neg h, hnone]
    rfl

/-- What rules should read of an instant: its nanoseconds, and out of the range its end on the side
of the instant. -/
structure Shown (c : PolicyContext) : Prop where
  exact : leastWhen ≤ c.instant.nanoseconds → c.instant.nanoseconds ≤ greatestWhen →
    (ofContext c).whenNs = c.instant.nanoseconds
  above : greatestWhen < c.instant.nanoseconds → (ofContext c).whenNs = greatestWhen
  below : c.instant.nanoseconds < leastWhen → (ofContext c).whenNs = leastWhen

/-- **Rules read what they should**, if the instant is not before the range. -/
theorem shown_iff : Shown c ↔ leastWhen ≤ c.instant.nanoseconds := by
  constructor
  · intro h
    by_contra hbelow
    have hleast := h.below (Int.not_le.mp hbelow)
    rw [whenNs_eq, if_neg fun hfits => hbelow hfits.1] at hleast
    exact absurd hleast (by decide)
  · intro h
    refine ⟨fun _ hle => ?_, fun habove => ?_, fun hbelow => ?_⟩
    · rw [whenNs_eq, if_pos ⟨h, hle⟩]
    · rw [whenNs_eq, if_neg fun hfits => Int.not_le.mpr habove hfits.2]
    · exact absurd h (Int.not_le.mpr hbelow)

/-- From the start of the range on, numbers are compared as nanoseconds up to its end. -/
theorem whenNs_le_iff (hc : leastWhen ≤ c.instant.nanoseconds)
    (hd : leastWhen ≤ d.instant.nanoseconds) :
    (ofContext c).whenNs ≤ (ofContext d).whenNs ↔
      c.instant.nanoseconds ≤ d.instant.nanoseconds ∨ greatestWhen ≤ d.instant.nanoseconds := by
  rw [whenNs_eq, whenNs_eq]
  generalize c.instant.nanoseconds = m at *
  generalize d.instant.nanoseconds = n at *
  by_cases hm : m ≤ greatestWhen
  · rw [if_pos ⟨hc, hm⟩]
    by_cases hn : n ≤ greatestWhen
    · rw [if_pos ⟨hd, hn⟩]
      omega
    · rw [if_neg fun h => hn h.2]
      omega
  · rw [if_neg fun h => hm h.2]
    by_cases hn : n ≤ greatestWhen
    · rw [if_pos ⟨hd, hn⟩]
      omega
    · rw [if_neg fun h => hn h.2]
      omega

/-- Rules read what they should at two times, and the earlier one as no later. -/
structure Followed (c d : PolicyContext) : Prop where
  earlier : Shown c
  later : Shown d
  ordered : (ofContext c).whenNs ≤ (ofContext d).whenNs

/-- **When the number follows the time.** Of two effective times in their order rules read what
they should, and the earlier as no later, if neither is before the range and the earlier is no leap
second that overtakes the later within the range; otherwise they do not. -/
theorem followed_iff (c d : PolicyContext) (hc : c.instant.Valid) (h : c.instant ≤ d.instant) :
    Followed c d ↔
      leastWhen ≤ c.instant.nanoseconds ∧ leastWhen ≤ d.instant.nanoseconds ∧
        ¬(c.instant.Overtakes d.instant ∧ d.instant.nanoseconds < greatestWhen) := by
  have hordered : c.instant.nanoseconds ≤ d.instant.nanoseconds ∨
      greatestWhen ≤ d.instant.nanoseconds ↔
        ¬(c.instant.Overtakes d.instant ∧ d.instant.nanoseconds < greatestWhen) := by
    rw [← Instant.nanoseconds_lt_iff hc h]
    omega
  constructor
  · rintro ⟨hearlier, hlater, hle⟩
    have hleast := shown_iff.mp hearlier
    have hleast' := shown_iff.mp hlater
    exact ⟨hleast, hleast', hordered.mp ((whenNs_le_iff hleast hleast').mp hle)⟩
  · rintro ⟨hleast, hleast', hpast⟩
    exact ⟨shown_iff.mpr hleast, shown_iff.mpr hleast',
      (whenNs_le_iff hleast hleast').mpr (hordered.mpr hpast)⟩

/-- A context that is judged at the start of a day. -/
def startOf (year : Int) (month day : Nat) : PolicyContext :=
  ⟨"key", none, [], [], [], [], [], .pinned (.ofCivil ⟨year, month, day⟩ ⟨0, 0, 0, 0⟩ 0)⟩

/-- The first days of two years are read in their order. -/
theorem followed_iff_recent :
    (startOf 2016 1 1).instant.Valid ∧ (startOf 2016 1 1).instant ≤ (startOf 2017 1 1).instant ∧
      Followed (startOf 2016 1 1) (startOf 2017 1 1) := by
  have hvalid : (startOf 2016 1 1).instant.Valid := Or.inl (by decide)
  have hle : (startOf 2016 1 1).instant ≤ (startOf 2017 1 1).instant := by decide
  have hfollowed := followed_iff (startOf 2016 1 1) (startOf 2017 1 1) hvalid hle
  exact ⟨hvalid, hle, hfollowed.mpr ⟨by decide, by decide, fun h => h.1.past.not_gt (by decide)⟩⟩

/-- A day before the range looks later than one in it. -/
theorem not_followed_early :
    Rfc3339.parseString "1600-01-01T00:00:00Z" = .ok (startOf 1600 1 1).instant ∧
      (startOf 1600 1 1).instant ≤ (startOf 2022 6 1).instant ∧
      (ofContext (startOf 1600 1 1)).whenNs = greatestWhen ∧
      ¬(ofContext (startOf 1600 1 1)).whenNs ≤ (ofContext (startOf 2022 6 1)).whenNs ∧
      ¬Followed (startOf 1600 1 1) (startOf 2022 6 1) := by
  have hlater : ¬(ofContext (startOf 1600 1 1)).whenNs ≤ (ofContext (startOf 2022 6 1)).whenNs := by
    decide
  exact ⟨by rfl, by decide, by decide, hlater, fun h => hlater h.ordered⟩

end RuleConfig

/-! ### The times that contexts have -/

namespace PolicyContext

/-- **A new context has a time that exists**, if the clock's does. -/
theorem valid_of_new {clock : Instant} {spec : PolicySpec} {o : Overrides} {c : PolicyContext}
    (hclock : clock.Valid) (h : new clock spec o = .ok c) : c.instant.Valid := by
  obtain ⟨time, htime, rfl⟩ := eq_ofSpec_of_new h
  show time.instant.Valid
  obtain hempty | hvalue := Decidable.em (o.effectiveTime.getD "" = "")
  · rw [requestedTime_of_empty clock hempty] at htime
    cases htime
    exact hclock
  · cases ho : o.effectiveTime with
    | none =>
      rw [ho] at hvalue
      exact absurd rfl hvalue
    | some value =>
      rw [ho] at htime hvalue
      have hne : value ≠ "" := hvalue
      rw [requestedTime_some clock hne] at htime
      split at htime
      · cases htime
        exact hclock
      · split at htime
        · next i hparse =>
          cases htime
          exact Rfc3339.valid_of_parse hparse
        · cases htime

/-- And so it is when attestations name a time that exists. -/
theorem valid_setAttestationTime {c : PolicyContext} {i : Instant} (hc : c.instant.Valid)
    (hi : i.Valid) : (c.setAttestationTime i).instant.Valid := by
  show (c.effectiveTime.attest i).instant.Valid
  unfold instant at hc
  cases htime : c.effectiveTime <;> rw [htime] at hc
  · exact hi
  · exact hc
  · exact hc

end PolicyContext
end ImagePolicy
