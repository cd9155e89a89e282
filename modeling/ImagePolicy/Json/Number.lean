/-
# JSON numbers

A number as it is written, the value it is given, and the text of a value. A literal without
fraction and exponent is an integer when it fits 64 bits, signed below zero and unsigned above.
Any other is a 64-bit float: as many leading digits as fit an unsigned 64-bit integer are taken as
a whole number, which is then scaled by a power of ten, each step rounding. A value beyond the
largest float is none. Minus zero is a float.

Floats are written with the fewest digits that read back: positionally, with a fraction in any case,
from 10^-5 up to 10^16, otherwise with a signed exponent.

Key definitions: `NumberLiteral`, `NumberLiteral.value?`, `Number`, `Number.render`.
-/
import ImagePolicy.Decimal.Shortest

namespace ImagePolicy
namespace Json

/-- A number as a text writes it: sign, digits before and after the point, and the exponent. -/
structure NumberLiteral where
  negative : Bool
  whole : List Nat
  fraction : List Nat
  exponent : Option Int
  deriving DecidableEq, Repr

/-- The value of a number. -/
inductive Number where
  | integer (value : Int)
  | real (negative : Bool) (magnitude : Binary64)
  deriving DecidableEq, Repr

/-- The integers that stay integers: signed 64 bits below zero, unsigned above. -/
def Number.IntegerRange (n : Int) : Prop :=
  -9223372036854775808 ≤ n ∧ n < 18446744073709551616

/-- What an unsigned 64-bit significand stays below. -/
def significandLimit : Nat := 18446744073709551616

/-- Takes digits into a significand while they fit; gives what did not fit too. -/
def takeDigits (significand : Nat) : List Nat → Nat × List Nat
  | [] => (significand, [])
  | d :: ds =>
    let next := significand * 10 + d
    if next < significandLimit then takeDigits next ds else (significand, d :: ds)

/-- The exponent of the largest power of ten that is a float. -/
def greatestPower : Nat := 308

/-- A power of ten as a float. -/
def powerOfTen (k : Nat) : Binary64 :=
  (Binary64.ofNat? (Nat.pow 10 k)).getD Binary64.zero

/-- A float times a power of ten, if it is not too large. -/
def scaleUp (f : Binary64) (k : Nat) : Option Binary64 :=
  if k ≤ greatestPower then f.mul? (powerOfTen k)
  else if f.mantissa = 0 then some f
  else none

/-- A float divided by a power of ten, in steps of the largest power there is. -/
def scaleDown (f : Binary64) (k : Nat) : Option Binary64 :=
  if k ≤ greatestPower then f.div? (powerOfTen k)
  else if f.mantissa = 0 then some f
  else match f.div? (powerOfTen greatestPower) with
    | none => none
    | some g => scaleDown g (k - greatestPower)
termination_by k
decreasing_by
  simp only [greatestPower] at *
  omega

/-- `significand · 10 ^ exponent` as a float. -/
def realOf (significand : Nat) (exponent : Int) : Option Binary64 :=
  match Binary64.ofNat? significand with
  | none => none
  | some f => if 0 ≤ exponent then scaleUp f exponent.toNat else scaleDown f (-exponent).toNat

/-- The float of a literal: digits of the whole part that do not fit count as a power of ten, digits
of the fraction that do not fit are dropped. -/
def NumberLiteral.real? (l : NumberLiteral) : Option Number :=
  let (significand, dropped) := takeDigits 0 l.whole
  let (significand, ignored) := takeDigits significand l.fraction
  let shift : Int := (dropped.length : Int) - ((l.fraction.length : Int) - ignored.length)
  (realOf significand (shift + l.exponent.getD 0)).map (.real l.negative)

/-- The value of a literal, if it is in range. -/
def NumberLiteral.value? (l : NumberLiteral) : Option Number :=
  match l.fraction, l.exponent, takeDigits 0 l.whole with
  | [], none, (n, []) =>
    if !l.negative then some (.integer n)
    else if 0 < n ∧ n ≤ 9223372036854775808 then some (.integer (-n))
    else l.real?
  | _, _, _ => l.real?

/-- Digits with a point after the first `places`, which is within them. -/
def pointed (places : Nat) (ds : List Char) : List Char :=
  ds.take places ++ '.' :: ds.drop places

/-- The text of a decimal. -/
def renderDecimal (d : Decimal) : List Char :=
  let ds := Text.decimal d.significand
  let point : Int := ds.length + d.exponent
  if 0 ≤ d.exponent ∧ point ≤ 16 then ds ++ List.replicate d.exponent.toNat '0' ++ ['.', '0']
  else if 0 < point ∧ point ≤ 16 then pointed point.toNat ds
  else if -5 < point ∧ point ≤ 0 then '0' :: '.' :: List.replicate (-point).toNat '0' ++ ds
  else
    let digits := if ds.length = 1 then ds else pointed 1 ds
    let sign := if 0 < point then ['+'] else []
    digits ++ 'e' :: sign ++ Text.integer (point - 1)

/-- The text of a number. -/
def Number.render : Number → List Char
  | .integer n => Text.integer n
  | .real negative m =>
    let magnitude := if m.mantissa = 0 then ['0', '.', '0'] else renderDecimal m.shortest
    if negative then '-' :: magnitude else magnitude

end Json
end ImagePolicy
