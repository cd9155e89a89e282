/-
# The date of a day number

Every day number is that of one existing date (`Date.valid_ofDayNumber`,
`Date.dayNumber_ofDayNumber`). A day number is taken apart into periods of four hundred, a hundred,
four and one years that begin in March, and a day in the last of them. Since leap days come last
in their years, what is left after each division is as long as the whole period only where that
period ends in a leap day.

Key definitions: `Date.yearStart`, `Date.ofMarch`, `Date.InMarchYear`.
Key theorems: `Date.exists_ofMarch`, `Date.valid_ofDayNumber`, `Date.dayNumber_ofDayNumber`.
-/
import ImagePolicy.Time.Calendar
import Mathlib.Tactic.IntervalCases

namespace ImagePolicy

theorem daysIn_le (year : Int) (month : Nat) : daysIn year month ≤ 31 := by
  unfold daysIn
  split
  · split <;> decide
  all_goals decide

namespace Date

/-- The days of the years before a year that begins in March, up to a constant. -/
def yearStart (year : Int) : Int :=
  365 * year + year / 4 - year / 100 + year / 400

/-- The date of a day in a year that begins in March, the first day being day 0. -/
def ofMarch (year day : Int) : Date :=
  let month := (5 * day + 2) / 153
  { year := if month < 10 then year else year + 1
    month := (if month < 10 then month + 3 else month - 9).toNat
    day := (day - (153 * month + 2) / 5 + 1).toNat }

/-- The day exists in the year that begins in March: its last day is a leap day. -/
structure InMarchYear (year day : Int) : Prop where
  first : 0 ≤ day
  last : day ≤ 365
  leap : day = 365 → leapYear (year + 1) = true

theorem dayNumber_ofMarch {year day : Int} (h0 : 0 ≤ day) (h1 : day ≤ 365) :
    (ofMarch year day).dayNumber = yearStart year + day - epochOffset := by
  have hm0 : 0 ≤ (5 * day + 2) / 153 := by omega
  have hm1 : (5 * day + 2) / 153 ≤ 11 := by omega
  have hd : 0 ≤ day - (153 * ((5 * day + 2) / 153) + 2) / 5 := by omega
  unfold dayNumber ofMarch yearStart
  simp only
  generalize (5 * day + 2) / 153 = month at *
  by_cases hm : month < 10
  · simp only [if_pos hm]
    rw [if_neg (by omega)]
    have : (((month + 3).toNat + 9) % 12 : Nat) = month.toNat := by omega
    rw [this]
    omega
  · simp only [if_neg hm]
    rw [if_pos (by omega)]
    have : (((month - 9).toNat + 9) % 12 : Nat) = month.toNat := by omega
    rw [this]
    have : year + 1 - 1 = year := by omega
    rw [this]
    omega

theorem valid_ofMarch {year day : Int} (h : InMarchYear year day) : (ofMarch year day).Valid := by
  obtain ⟨h0, h1, hl⟩ := h
  have hm0 : 0 ≤ (5 * day + 2) / 153 := by omega
  have hm1 : (5 * day + 2) / 153 ≤ 11 := by omega
  have hd : 0 ≤ day - (153 * ((5 * day + 2) / 153) + 2) / 5 := by omega
  have hnext : day < (153 * ((5 * day + 2) / 153 + 1) + 2) / 5 := by omega
  have hfeb : 28 ≤ daysIn (year + 1) 2 ∧ (day = 365 → daysIn (year + 1) 2 = 29) := by
    simp only [daysIn]
    split <;> simp_all
  unfold Valid ofMarch
  simp only
  generalize (5 * day + 2) / 153 = month at *
  obtain ⟨m, rfl⟩ := Int.eq_ofNat_of_zero_le hm0
  by_cases hlast : m = 11
  · subst hlast
    refine ⟨by decide, by decide, by omega, ?_⟩
    show (day - (153 * 11 + 2) / 5 + 1).toNat ≤ daysIn (year + 1) 2
    omega
  · have hm : m ≤ 10 := by omega
    interval_cases m <;> simp [daysIn] <;> omega

/-- The start of a year, by the years of its period of four hundred, and so on. -/
theorem yearStart_eq {era century quad single : Int} (hc0 : 0 ≤ century) (hc : century ≤ 3)
    (hq0 : 0 ≤ quad) (hq : quad ≤ 24) (hs0 : 0 ≤ single) (hs : single ≤ 3) :
    yearStart (400 * era + 100 * century + 4 * quad + single) =
      daysPerEra * era + 36524 * century + 1461 * quad + 365 * single := by
  unfold yearStart daysPerEra
  have h4 : (400 * era + 100 * century + 4 * quad + single) / 4 =
      100 * era + 25 * century + quad := by
    omega
  have h100 : (400 * era + 100 * century + 4 * quad + single) / 100 = 4 * era + century := by omega
  have h400 : (400 * era + 100 * century + 4 * quad + single) / 400 = era := by omega
  rw [h4, h100, h400]
  omega

/-- The last year of four is a leap year, unless it is the last of a century that is not itself the
last of four. -/
theorem leapYear_of_cycles {era century quad : Int} (hq0 : 0 ≤ quad) (hq : quad ≤ 24)
    (hlast : quad = 24 → century = 3) :
    leapYear (400 * era + 100 * century + 4 * quad + 3 + 1) = true := by
  have h4 : (400 * era + 100 * century + 4 * quad + 3 + 1) % 4 = 0 := by omega
  have h100 : (400 * era + 100 * century + 4 * quad + 3 + 1) % 100 ≠ 0 ∨
      (400 * era + 100 * century + 4 * quad + 3 + 1) % 400 = 0 := by
    by_cases h : quad = 24
    · right
      have := hlast h
      omega
    · left
      omega
  simpa [leapYear, h4] using h100

/-- Every day number is that of a day in a year that begins in March. -/
theorem exists_ofMarch (n : Int) : ∃ year day, InMarchYear year day ∧
    yearStart year + day - epochOffset = n ∧ ofDayNumber n = ofMarch year day := by
  have hera : 0 ≤ (n + epochOffset) % daysPerEra ∧ (n + epochOffset) % daysPerEra < daysPerEra :=
    ⟨Int.emod_nonneg _ (by decide), Int.emod_lt_of_pos _ (by decide)⟩
  have hn := Int.mul_ediv_add_emod (n + epochOffset) daysPerEra
  unfold ofDayNumber
  simp only
  generalize (n + epochOffset) / daysPerEra = era at *
  generalize (n + epochOffset) % daysPerEra = d at *
  have hd : d < 146097 := hera.2
  -- what is left after the centuries is as long as a century only in the last of four
  generalize hcentury : min (d / 36524) 3 = century
  have hc : 0 ≤ century ∧ century ≤ 3 ∧ 0 ≤ d - 36524 * century ∧ d - 36524 * century ≤ 36524 ∧
      (d - 36524 * century = 36524 → century = 3) := by omega
  generalize hd₁ : d - 36524 * century = d₁ at hc ⊢
  generalize hquad : d₁ / 1461 = quad
  have hq : 0 ≤ quad ∧ quad ≤ 24 ∧ 0 ≤ d₁ - 1461 * quad ∧ d₁ - 1461 * quad ≤ 1460 := by omega
  generalize hd₂ : d₁ - 1461 * quad = d₂ at hq ⊢
  generalize hsingle : min (d₂ / 365) 3 = single
  have hs : 0 ≤ single ∧ single ≤ 3 ∧ 0 ≤ d₂ - 365 * single ∧ d₂ - 365 * single ≤ 365 ∧
      (d₂ - 365 * single = 365 → single = 3 ∧ d₂ = 1460) := by omega
  generalize hday : d₂ - 365 * single = day at hs ⊢
  refine ⟨400 * era + 100 * century + 4 * quad + single, day, ⟨hs.2.2.1, hs.2.2.2.1, ?_⟩, ?_, rfl⟩
  · intro hleap
    obtain ⟨rfl, h1460⟩ := hs.2.2.2.2 hleap
    exact leapYear_of_cycles hq.1 hq.2.1 (fun h => hc.2.2.2.2 (by omega))
  · rw [yearStart_eq hc.1 hc.2.1 hq.1 hq.2.1 hs.1 hs.2.1]
    omega

/-- **The date of a day number exists.** -/
theorem valid_ofDayNumber (n : Int) : (ofDayNumber n).Valid := by
  obtain ⟨year, day, h, -, he⟩ := exists_ofMarch n
  rw [he]
  exact valid_ofMarch h

/-- **The date of a day number has that number.** -/
theorem dayNumber_ofDayNumber (n : Int) : (ofDayNumber n).dayNumber = n := by
  obtain ⟨year, day, h, hn, he⟩ := exists_ofMarch n
  rw [he, dayNumber_ofMarch h.first h.last, hn]

end Date
end ImagePolicy
