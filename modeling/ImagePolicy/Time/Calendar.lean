/-
# The proleptic Gregorian calendar

Dates as day numbers and back, day 0 being 1970-01-01. Years are counted astronomically: the year
before year 1 is year 0. The rules of today's calendar hold for all years. A year is taken to
begin in March, so that the leap day is its last.

Key definitions: `Date`, `Date.Valid`, `Date.dayNumber`, `Date.ofDayNumber`.
-/

namespace ImagePolicy

/-- A calendar date. -/
structure Date where
  year : Int
  month : Nat
  day : Nat
  deriving DecidableEq, Repr

/-- Whether a year has 366 days. -/
def leapYear (year : Int) : Bool :=
  year % 4 == 0 && (year % 100 != 0 || year % 400 == 0)

/-- The days of a month. -/
def daysIn (year : Int) : Nat → Nat
  | 2 => if leapYear year then 29 else 28
  | 4 | 6 | 9 | 11 => 30
  | _ => 31

namespace Date

/-- The date exists. -/
def Valid (d : Date) : Prop :=
  1 ≤ d.month ∧ d.month ≤ 12 ∧ 1 ≤ d.day ∧ d.day ≤ daysIn d.year d.month

instance (d : Date) : Decidable d.Valid :=
  inferInstanceAs (Decidable (_ ∧ _ ∧ _ ∧ _))

/-- The days of 400 years. -/
def daysPerEra : Int := 146097

/-- The days from 0000-03-01 to 1970-01-01. -/
def epochOffset : Int := 719468

/-- The number of days from 1970-01-01. -/
def dayNumber (d : Date) : Int :=
  let year := if d.month ≤ 2 then d.year - 1 else d.year
  let month : Int := ((d.month + 9) % 12 : Nat)
  let dayOfYear := (153 * month + 2) / 5 + d.day - 1
  365 * year + year / 4 - year / 100 + year / 400 + dayOfYear - epochOffset

/-- The date of a day number. A period that ends in a leap day is one day longer than its like, so
its last day is kept from opening a further period. -/
def ofDayNumber (n : Int) : Date :=
  let day := n + epochOffset
  let era := day / daysPerEra
  let day := day % daysPerEra
  let century := min (day / 36524) 3
  let day := day - 36524 * century
  let quad := day / 1461
  let day := day - 1461 * quad
  let single := min (day / 365) 3
  let day := day - 365 * single
  let month := (5 * day + 2) / 153
  let year := 400 * era + 100 * century + 4 * quad + single
  { year := if month < 10 then year else year + 1
    month := (if month < 10 then month + 3 else month - 9).toNat
    day := (day - (153 * month + 2) / 5 + 1).toNat }

end Date
end ImagePolicy
