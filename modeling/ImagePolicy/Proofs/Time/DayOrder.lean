/-
# The order of dates

Dates that exist have day numbers in their own order, which is by year, then month, then day
(`Date.dayNumber_lt_iff`). The number of a date is taken in years that begin in March: what such a
year starts with, and a day in it that is below the start of the next year. So the year decides,
and in one year the month, and in one month the day; and since no two dates that exist have one
number, a date is the one of its day number (`Date.ofDayNumber_dayNumber`). With the time of day
added, an instant has the date and the time that it was made of (`Instant.date_ofCivil`,
`Instant.timeOfDay_ofCivil`).

Key definitions: `Date.marchYear`, `Date.marchMonth`, `Date.marchDay`, `Date.Before`.
Key theorems: `Date.yearStart_succ`, `Date.dayNumber_lt_iff`, `Date.ofDayNumber_dayNumber`,
`Instant.date_ofCivil`, `Instant.timeOfDay_ofCivil`.
-/
import ImagePolicy.Proofs.Time.Calendar
import ImagePolicy.Time.Instant

namespace ImagePolicy
namespace Date

variable {a b d : Date}

/-! ### Years that begin in March -/

/-- The year that begins in March and holds a date. -/
def marchYear (d : Date) : Int :=
  if d.month ≤ 2 then d.year - 1 else d.year

/-- The month, from March on. -/
def marchMonth (d : Date) : Int :=
  ((d.month + 9) % 12 : Nat)

/-- The day in the year, from the first of March on. -/
def marchDay (d : Date) : Int :=
  (153 * d.marchMonth + 2) / 5 + d.day - 1

theorem dayNumber_eq (d : Date) :
    d.dayNumber = yearStart d.marchYear + d.marchDay - epochOffset :=
  rfl

/-- A year has 365 days, and one more if it ends in a leap day. -/
theorem yearStart_succ (year : Int) :
    yearStart (year + 1) = yearStart year + if leapYear (year + 1) then 366 else 365 := by
  unfold yearStart leapYear
  split <;> simp only [Bool.and_eq_true, Bool.or_eq_true, beq_iff_eq, bne_iff_ne, ne_eq, not_and,
    not_or] at * <;> omega

theorem yearStart_mono {year later : Int} (h : year ≤ later) :
    yearStart year ≤ yearStart later := by
  unfold yearStart
  omega

/-- A day of a year comes before every day of a later one. -/
theorem InMarchYear.lt_of_year_lt {year later day day' : Int} (h : InMarchYear year day)
    (h' : InMarchYear later day') (hyear : year < later) :
    yearStart year + day < yearStart later + day' := by
  have hnext : yearStart year + day < yearStart (year + 1) := by
    rw [yearStart_succ]
    have hlast := h.last
    by_cases hleap : leapYear (year + 1) = true
    · rw [if_pos hleap]
      omega
    · have hday : day ≠ 365 := fun heq => hleap (h.leap heq)
      rw [if_neg hleap]
      omega
  have hmono : yearStart (year + 1) ≤ yearStart later := yearStart_mono hyear
  have hfirst := h'.first
  omega

/-! ### Dates that exist -/

/-- A month but for February lasts until the next one begins. -/
theorem daysIn_add_monthStart {month : Nat} (h1 : 1 ≤ month) (h12 : month ≤ 12) (hfeb : month ≠ 2)
    (year : Int) : (153 * (((month + 9) % 12 : Nat) : Int) + 2) / 5 + daysIn year month =
      (153 * ((((month + 9) % 12 : Nat) : Int) + 1) + 2) / 5 := by
  interval_cases month <;> first | rfl | exact absurd rfl hfeb

/-- A date that exists is a day of its year, and before the next month begins. -/
theorem Valid.inMarchYear (h : d.Valid) : InMarchYear d.marchYear d.marchDay ∧
    (d.marchMonth ≤ 10 → d.marchDay < (153 * (d.marchMonth + 1) + 2) / 5) := by
  obtain ⟨year, month, day⟩ := d
  obtain ⟨h1, h12, hday, hdays⟩ := h
  simp only at h1 h12 hday hdays
  by_cases hfeb : month = 2
  · -- the last month, which has a leap day in a leap year
    subst hfeb
    have hyear : marchYear ⟨year, 2, day⟩ + 1 = year := Int.sub_add_cancel year 1
    have hmonth : marchMonth ⟨year, 2, day⟩ = 11 := rfl
    have hmarch : marchDay ⟨year, 2, day⟩ = 337 + day - 1 := by
      rw [marchDay, hmonth]
      rfl
    simp only [daysIn] at hdays
    rw [hmonth, hmarch]
    refine ⟨⟨by omega, ?_, ?_⟩, by omega⟩
    · split at hdays <;> omega
    · rw [hyear]
      intro hlast
      by_contra hnot
      rw [if_neg hnot] at hdays
      omega
  · have hlength := daysIn_add_monthStart h1 h12 hfeb year
    have hmarch : marchDay ⟨year, month, day⟩ =
        (153 * (((month + 9) % 12 : Nat) : Int) + 2) / 5 + day - 1 := rfl
    have hmonth : marchMonth ⟨year, month, day⟩ = ((month + 9) % 12 : Nat) := rfl
    have hlast : (month + 9) % 12 ≤ 10 := by omega
    rw [hmonth, hmarch]
    exact ⟨⟨by omega, by omega, by omega⟩, by omega⟩

/-! ### The order -/

/-- One date is before another. -/
def Before (a b : Date) : Prop :=
  a.year < b.year ∨ a.year = b.year ∧ (a.month < b.month ∨ a.month = b.month ∧ a.day < b.day)

/-- The earlier date has the lower number. -/
theorem Before.dayNumber_lt (h : a.Before b) (ha : a.Valid) (hb : b.Valid) :
    a.dayNumber < b.dayNumber := by
  obtain ⟨hain, hamonth⟩ := ha.inMarchYear
  obtain ⟨hbin, -⟩ := hb.inMarchYear
  have horder : a.marchYear < b.marchYear ∨ a.marchYear = b.marchYear ∧
      (a.marchMonth < b.marchMonth ∨ a.marchMonth = b.marchMonth ∧ a.day < b.day) := by
    obtain ⟨ha1, ha12, -, -⟩ := ha
    obtain ⟨hb1, hb12, -, -⟩ := hb
    unfold Before at h
    unfold marchYear marchMonth
    split <;> split <;> omega
  rw [dayNumber_eq, dayNumber_eq]
  rcases horder with hyear | ⟨hyear, hmonth | ⟨hmonth, hday⟩⟩
  · have := hain.lt_of_year_lt hbin hyear
    omega
  · have hb11 : b.marchMonth ≤ 11 := by
      unfold marchMonth
      omega
    have hnext := hamonth (by omega)
    have hstart : (153 * b.marchMonth + 2) / 5 ≤ b.marchDay := by
      have := hb.2.2.1
      unfold marchDay
      omega
    rw [hyear]
    omega
  · unfold marchDay
    rw [hyear, hmonth]
    omega

/-- Two dates are one, or one of them is before the other. -/
theorem before_trichotomy (a b : Date) : a.Before b ∨ a = b ∨ b.Before a := by
  obtain ⟨year, month, day⟩ := a
  obtain ⟨year', month', day'⟩ := b
  simp only [Before, mk.injEq]
  omega

/-- **Dates that exist have day numbers in their order.** -/
theorem dayNumber_lt_iff (ha : a.Valid) (hb : b.Valid) :
    a.dayNumber < b.dayNumber ↔ a.Before b := by
  constructor
  · intro h
    rcases before_trichotomy a b with hbefore | rfl | hafter
    · exact hbefore
    · exact absurd h (Int.lt_irrefl _)
    · exact absurd (hafter.dayNumber_lt hb ha) (Int.not_lt.mpr (Int.le_of_lt h))
  · exact fun h => h.dayNumber_lt ha hb

/-- No two dates that exist have one number. -/
theorem eq_of_dayNumber_eq (ha : a.Valid) (hb : b.Valid) (h : a.dayNumber = b.dayNumber) :
    a = b := by
  rcases before_trichotomy a b with hbefore | heq | hafter
  · exact absurd h (Int.ne_of_lt (hbefore.dayNumber_lt ha hb))
  · exact heq
  · exact absurd h.symm (Int.ne_of_lt (hafter.dayNumber_lt hb ha))

/-- **A date that exists is the one of its day number.** -/
theorem ofDayNumber_dayNumber (h : d.Valid) : ofDayNumber d.dayNumber = d :=
  eq_of_dayNumber_eq (valid_ofDayNumber _) h (dayNumber_ofDayNumber _)

end Date

namespace Instant

variable {d : Date} {t : TimeOfDay}

/-- An instant of UTC falls on the day that it was made of. -/
theorem second_ofCivil (h : t.Valid) :
    (ofCivil d t 0).second / secondsPerDay = d.dayNumber ∧
      (ofCivil d t 0).second % secondsPerDay =
        (t.hour * 3600 + t.minute * 60 + t.second : Nat) := by
  obtain ⟨hh, hm, hs, -⟩ := h
  simp only [ofCivil, secondsPerDay]
  omega

theorem date_ofCivil (hd : d.Valid) (ht : t.Valid) : (ofCivil d t 0).date = d := by
  rw [date, (second_ofCivil ht).1]
  exact Date.ofDayNumber_dayNumber hd

theorem timeOfDay_ofCivil (ht : t.Valid) : (ofCivil d t 0).timeOfDay = t := by
  have hsecond := (second_ofCivil (d := d) ht).2
  obtain ⟨hh, hm, hs, -⟩ := ht
  obtain ⟨hour, minute, second, nano⟩ := t
  simp only at hh hm hs hsecond
  unfold timeOfDay
  rw [hsecond]
  simp only [Int.toNat_natCast, TimeOfDay.mk.injEq]
  refine ⟨?_, ?_, ?_, rfl⟩ <;> omega

end Instant
end ImagePolicy
