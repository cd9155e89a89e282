/-
# Shortest decimals

The decimal with the fewest digits among those that round to a given magnitude, and of those the
one nearest to it. For one digit, two digits and so on the two neighbours of the magnitude on that
decimal grid are tried; the first grid with a neighbour inside the rounding interval wins.
Seventeen digits always suffice.

Key definitions: `Decimal`, `Binary64.Interval`, `Binary64.shortest`.
-/
import ImagePolicy.Decimal.Binary64
import ImagePolicy.Text.Digits

namespace ImagePolicy

/-- The decimal `significand · 10 ^ exponent`. -/
structure Decimal where
  significand : Nat
  exponent : Int
  deriving DecidableEq, Repr

/-- The decimal without zeros at the end of its significand. -/
def Decimal.strip (d : Decimal) : Decimal :=
  if h : d.significand ≠ 0 ∧ d.significand % 10 = 0 then
    Decimal.strip ⟨d.significand / 10, d.exponent + 1⟩
  else d
termination_by d.significand
decreasing_by
  omega

namespace Binary64

/-- The rounding interval of a magnitude, in quarters of its grid: the reals between `low` and
`high` times `2 ^ exponent` round to it, and so do the ends when `closed`. -/
structure Interval where
  low : Nat
  middle : Nat
  high : Nat
  exponent : Int
  closed : Bool

/-- The interval reaches half a step either way, but only a quarter step down from a power of two.
-/
def interval (v : Binary64) : Interval :=
  let below := if v.mantissa = leastNormal ∧ leastExponent < v.exponent then 1 else 2
  ⟨4 * v.mantissa - below, 4 * v.mantissa, 4 * v.mantissa + 2, v.exponent - 2,
    v.mantissa % 2 == 0⟩

/-- A fraction of natural numbers is compared with the points of an interval by cross-multiplying:
`(a, b)` for `a · 10 ^ grid` against `b · 2 ^ exponent`. -/
def crossed (candidate point : Nat) (grid exponent : Int) : Nat × Nat :=
  let a := candidate * Nat.pow 10 grid.toNat * Nat.pow 2 (-exponent).toNat
  let b := point * Nat.pow 2 exponent.toNat * Nat.pow 10 (-grid).toNat
  (a, b)

/-- Whether `candidate · 10 ^ grid` lies in the interval. -/
def Interval.holds (i : Interval) (candidate : Nat) (grid : Int) : Bool :=
  let (a, low) := crossed candidate i.low grid i.exponent
  let (_, high) := crossed candidate i.high grid i.exponent
  if i.closed then low ≤ a && a ≤ high else low < a && a < high

/-- The greatest multiple of `10 ^ grid` that is not above the middle. -/
def Interval.under (i : Interval) (grid : Int) : Nat :=
  (i.middle * Nat.pow 2 i.exponent.toNat * Nat.pow 10 (-grid).toNat) /
    (Nat.pow 10 grid.toNat * Nat.pow 2 (-i.exponent).toNat)

/-- The neighbour of the middle on the grid that the interval holds; of two the nearer, of two as
near the even one. -/
def Interval.neighbour? (i : Interval) (grid : Int) : Option Nat :=
  let under := i.under grid
  let above := under + 1
  match i.holds under grid, i.holds above grid with
  | false, false => none
  | true, false => some under
  | false, true => some above
  | true, true =>
    let (twice, whole) := crossed (under + above) (2 * i.middle) grid i.exponent
    if whole < twice then some under
    else if twice < whole then some above
    else some (under + under % 2)

/-- The exponent of the first digit of a magnitude other than zero. -/
def Interval.firstDigit (i : Interval) : Int :=
  let num := i.middle * Nat.pow 2 i.exponent.toNat
  let den := Nat.pow 2 (-i.exponent).toNat
  if den ≤ num then ((Text.digits (num / den)).length : Int) - 1
  else -((Text.digits ((den + num - 1) / num - 1)).length : Int)

/-- The first grid, from `grid` down through finer ones, that has a neighbour. -/
def Interval.search (i : Interval) : Nat → Int → Option Decimal
  | 0, _ => none
  | tries + 1, grid =>
    match i.neighbour? grid with
    | some significand => some ⟨significand, grid⟩
    | none => i.search tries (grid - 1)

/-- The shortest decimal of a magnitude other than zero. -/
def shortest (v : Binary64) : Decimal :=
  let i := v.interval
  match i.search 17 i.firstDigit with
  | some d => d.strip
  | none => ⟨0, 0⟩

end Binary64
end ImagePolicy
