/-
# Instants

An instant of UTC with nanoseconds: whole seconds since 1970-01-01T00:00:00Z and a part of a
second. In a leap second the clock stands at the second before it and the part is a whole second
or more, so that instants are in order when their seconds and then their parts are. An instant is
written in the form of RFC 3339; years beyond four digits and years before year 0 carry a sign.

Key definitions: `Instant`, `Instant.max`, `Instant.nanoseconds?`, `Instant.render`,
`Instant.renderSeconds`.
-/
import ImagePolicy.Time.Calendar
import ImagePolicy.Text.Digits

namespace ImagePolicy

/-- Nanoseconds of a second. -/
def nanosPerSecond : Nat := 1000000000

/-- Seconds of a day. -/
def secondsPerDay : Nat := 86400

/-- A point in time. -/
structure Instant where
  second : Int
  nano : Nat
  deriving DecidableEq, Repr, Inhabited

/-- A time of day with its part of a second. -/
structure TimeOfDay where
  hour : Nat
  minute : Nat
  second : Nat
  nano : Nat
  deriving DecidableEq, Repr

/-- The time of day exists; a part of a second beyond its end is a leap second's. -/
def TimeOfDay.Valid (t : TimeOfDay) : Prop :=
  t.hour ≤ 23 ∧ t.minute ≤ 59 ∧ t.second ≤ 59 ∧
    (t.nano < nanosPerSecond ∨ t.second = 59 ∧ t.nano < 2 * nanosPerSecond)

instance (t : TimeOfDay) : Decidable t.Valid :=
  inferInstanceAs (Decidable (_ ∧ _ ∧ _ ∧ _))

namespace Instant

/-- One instant is not after another. -/
protected def le (a b : Instant) : Prop :=
  a.second < b.second ∨ a.second = b.second ∧ a.nano ≤ b.nano

/-- One instant is before another. -/
protected def lt (a b : Instant) : Prop :=
  a.second < b.second ∨ a.second = b.second ∧ a.nano < b.nano

instance : LE Instant := ⟨Instant.le⟩
instance : LT Instant := ⟨Instant.lt⟩

instance (a b : Instant) : Decidable (a ≤ b) :=
  inferInstanceAs (Decidable (_ ∨ _))

instance (a b : Instant) : Decidable (a < b) :=
  inferInstanceAs (Decidable (_ ∨ _))

theorem le_def (a b : Instant) :
    a ≤ b ↔ a.second < b.second ∨ a.second = b.second ∧ a.nano ≤ b.nano := Iff.rfl

theorem lt_def (a b : Instant) :
    a < b ↔ a.second < b.second ∨ a.second = b.second ∧ a.nano < b.nano := Iff.rfl

theorem not_le (a b : Instant) : ¬a ≤ b ↔ b < a := by
  simp only [le_def, lt_def]
  omega

/-- The later of two instants. -/
protected def max (a b : Instant) : Instant :=
  if a ≤ b then b else a

/-- The instant of a date and a time of day at an offset east of UTC, in seconds. -/
def ofCivil (d : Date) (t : TimeOfDay) (offset : Int) : Instant :=
  ⟨d.dayNumber * secondsPerDay + (t.hour * 3600 + t.minute * 60 + t.second : Nat) - offset, t.nano⟩

/-- The date in UTC. -/
def date (i : Instant) : Date :=
  .ofDayNumber (i.second / secondsPerDay)

/-- The time of day in UTC. -/
def timeOfDay (i : Instant) : TimeOfDay :=
  let s := (i.second % secondsPerDay).toNat
  ⟨s / 3600, s / 60 % 60, s % 60, i.nano⟩

/-- Signed 64-bit integers. -/
def inInt64 (n : Int) : Bool :=
  -9223372036854775808 ≤ n && n < 9223372036854775808

/-- The nanoseconds since the epoch, if they fit a signed 64-bit integer. -/
def nanoseconds? (i : Instant) : Option Int :=
  let n := i.second * nanosPerSecond + i.nano
  if inInt64 n then some n else none

/-- A year in four digits; one outside 0 to 9999 has a sign and at least four. -/
def renderYear (year : Int) : List Char :=
  if 0 ≤ year ∧ year ≤ 9999 then Text.padded 4 year.toNat
  else (if year < 0 then '-' else '+') :: Text.padded 4 year.natAbs

/-- A date, as year, month and day. -/
def renderDate (d : Date) : List Char :=
  renderYear d.year ++ '-' :: Text.padded 2 d.month ++ '-' :: Text.padded 2 d.day

/-- The second on the clock's face: a leap second shows one more than the second it belongs to. -/
def faceSecond (t : TimeOfDay) : Nat :=
  if nanosPerSecond ≤ t.nano then t.second + 1 else t.second

/-- A time of day in whole seconds. -/
def renderTime (t : TimeOfDay) : List Char :=
  Text.padded 2 t.hour ++ ':' :: Text.padded 2 t.minute ++ ':' :: Text.padded 2 (faceSecond t)

/-- The part of a second, in as few of three, six or nine places as are exact. -/
def renderFraction (nano : Nat) : List Char :=
  let n := nano % nanosPerSecond
  if n = 0 then []
  else if n % 1000000 = 0 then '.' :: Text.padded 3 (n / 1000000)
  else if n % 1000 = 0 then '.' :: Text.padded 6 (n / 1000)
  else '.' :: Text.padded 9 n

/-- The instant with its part of a second. -/
def render (i : Instant) : List Char :=
  let t := i.timeOfDay
  renderDate i.date ++ 'T' :: renderTime t ++ renderFraction t.nano ++ ['Z']

/-- The instant cut to whole seconds. -/
def renderSeconds (i : Instant) : List Char :=
  renderDate i.date ++ 'T' :: renderTime i.timeOfDay ++ ['Z']

/-- The instant as a string. -/
def text (i : Instant) : String := .ofList i.render

/-- The instant cut to whole seconds as a string. -/
def secondsText (i : Instant) : String := .ofList i.renderSeconds

end Instant
end ImagePolicy
