/-
# Magnitudes of 64-bit floating point

A finite magnitude of IEEE 754 binary64 is `mantissa · 2 ^ exponent` on the format's grid. Results
of arithmetic are the exact rational rounded to the nearest point of that grid, a tie going to the
even mantissa; a result beyond the largest magnitude is no magnitude. Everything is exact
arithmetic on natural numbers, so that it can be reasoned about.

Key definitions: `Binary64`, `Binary64.nearest`, `Binary64.mul?`, `Binary64.div?`.
-/

namespace ImagePolicy

/-- A magnitude on the binary64 grid. A normal one has a mantissa of 53 bits; a smaller mantissa
stands at the least exponent. -/
structure Binary64 where
  mantissa : Nat
  exponent : Int
  deriving DecidableEq, Repr

namespace Binary64

/-- The exponent of the grid next to zero. -/
def leastExponent : Int := -1074

/-- The exponent of the largest magnitudes. -/
def greatestExponent : Int := 971

/-- What every mantissa is below, with 53 bits. -/
def mantissaLimit : Nat := 9007199254740992

/-- The least mantissa with 53 bits. -/
def leastNormal : Nat := 4503599627370496

/-- Zero. -/
def zero : Binary64 := ⟨0, leastExponent⟩

/-- The quotient rounded to a whole number, a tie going to the even neighbour. -/
def roundDiv (num den : Nat) : Nat :=
  let whole := num / den
  let twice := 2 * (num % den)
  if twice < den then whole
  else if den < twice then whole + 1
  else whole + whole % 2

/-- `num / den · 2 ^ shift` as a numerator and a denominator. -/
def scaled (num den : Nat) (shift : Int) : Nat × Nat :=
  if 0 ≤ shift then (num * Nat.pow 2 shift.toNat, den) else (num, den * Nat.pow 2 (-shift).toNat)

/-- The magnitude nearest to `num / den · 2 ^ shift`, if it is not beyond the largest. -/
def nearest (num den : Nat) (shift : Int) : Option Binary64 :=
  let (num, den) := scaled num den shift
  if num = 0 then some zero
  else
    let bits : Int := (Nat.log2 num : Int) - Nat.log2 den
    let low := max (bits - 53) leastExponent
    let (n, d) := scaled num den (-low)
    let exponent := if mantissaLimit ≤ n / d then low + 1 else low
    let (n, d) := scaled num den (-exponent)
    let mantissa := roundDiv n d
    let rounded : Binary64 :=
      if mantissa = mantissaLimit then ⟨leastNormal, exponent + 1⟩ else ⟨mantissa, exponent⟩
    if greatestExponent < rounded.exponent then none else some rounded

/-- The rounded product. -/
def mul? (a b : Binary64) : Option Binary64 :=
  nearest (a.mantissa * b.mantissa) 1 (a.exponent + b.exponent)

/-- The rounded quotient; the divisor is not zero. -/
def div? (a b : Binary64) : Option Binary64 :=
  nearest a.mantissa b.mantissa (a.exponent - b.exponent)

/-- The magnitude nearest to a whole number. -/
def ofNat? (n : Nat) : Option Binary64 :=
  nearest n 1 0

end Binary64
end ImagePolicy
