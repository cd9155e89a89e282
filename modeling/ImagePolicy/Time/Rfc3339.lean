/-
# Reading RFC 3339

The strict form `YYYY-MM-DDTHH:MM:SS[.fraction]offset`: every field has its full width, `t` or a
blank may stand for `T`, digits of the fraction beyond the ninth are dropped, and the offset is
`Z`, `z` or a sign with `HH:MM`. A true minus sign counts as a hyphen there. Second 60 is a leap
second, in whatever minute it stands.

Faults are found from left to right, with four rules beside: a text shorter than 19 bytes is too
short whatever it holds, the date is judged once it is complete, the time once the fraction is, and
the size of the offset in the end, after what follows it.

Key definitions: `TimeFault`, `Rfc3339.parse`.
-/
import ImagePolicy.Time.Instant
import ImagePolicy.Text.Utf8

namespace ImagePolicy

/-- Why a text is no point in time. -/
inductive TimeFault where
  | invalid
  | tooShort
  | tooLong
  | outOfRange
  deriving DecidableEq, Repr

/-- The wording of a fault. -/
def TimeFault.message : TimeFault → String
  | .invalid => "input contains invalid characters"
  | .tooShort => "premature end of input"
  | .tooLong => "trailing input"
  | .outOfRange => "input is out of range"

namespace Rfc3339

/-- The bytes of date and time without fraction and offset. -/
def leastBytes : Nat := 19

/-- A number of exactly so many digits, after the digits already read. The text is known to be long
enough, so its end is no matter here. -/
def number (n : Nat) : Nat → List Char → Except TimeFault (Nat × List Char)
  | 0, cs => .ok (n, cs)
  | _ + 1, [] => .error .invalid
  | width + 1, c :: cs =>
    match Text.digit? c with
    | some d => number (10 * n + d) width cs
    | none => .error .invalid

/-- A separator within the part of known length. -/
def separator (p : Char → Bool) : List Char → Except TimeFault (List Char)
  | c :: cs => if p c then .ok cs else .error .invalid
  | [] => .error .invalid

/-- The date in front of the text. -/
def date (cs : List Char) : Except TimeFault (Date × List Char) := do
  let (year, cs) ← number 0 4 cs
  let cs ← separator (· == '-') cs
  let (month, cs) ← number 0 2 cs
  let cs ← separator (· == '-') cs
  let (day, cs) ← number 0 2 cs
  let d : Date := ⟨year, month, day⟩
  if d.Valid then .ok (d, cs) else .error .outOfRange

/-- The digits in front of the text. -/
def leadingDigits : List Char → List Nat × List Char
  | [] => ([], [])
  | c :: cs =>
    match Text.digit? c with
    | some d => let (ds, rest) := leadingDigits cs; (d :: ds, rest)
    | none => ([], c :: cs)

/-- The nanoseconds that digits after a point spell, nine of them at most. -/
def nanosOf (ds : List Nat) : Nat :=
  let kept := ds.take 9
  Text.ofDigits kept * Nat.pow 10 (9 - kept.length)

/-- The fraction, if there is one. -/
def fraction : List Char → Except TimeFault (Nat × List Char)
  | '.' :: cs =>
    match leadingDigits cs with
    | ([], []) => .error .tooShort
    | ([], _ :: _) => .error .invalid
    | (ds, rest) => .ok (nanosOf ds, rest)
  | cs => .ok (0, cs)

/-- The time of day in front of the text. -/
def time (cs : List Char) : Except TimeFault (TimeOfDay × List Char) := do
  let (hour, cs) ← number 0 2 cs
  let cs ← separator (· == ':') cs
  let (minute, cs) ← number 0 2 cs
  let cs ← separator (· == ':') cs
  let (second, cs) ← number 0 2 cs
  let (nano, cs) ← fraction cs
  let t : TimeOfDay :=
    if second = 60 then ⟨hour, minute, 59, nano + nanosPerSecond⟩ else ⟨hour, minute, second, nano⟩
  if t.Valid then .ok (t, cs) else .error .outOfRange

/-- Two digits of an offset. A lone character that takes several bytes is a wrong one, not an end.
-/
def offsetPair : List Char → Except TimeFault ((Nat × Nat) × List Char)
  | [] => .error .tooShort
  | [c] => if c.toNat < 0x80 then .error .tooShort else .error .invalid
  | a :: b :: cs =>
    match Text.digit? a, Text.digit? b with
    | some a, some b => .ok ((a, b), cs)
    | _, _ => .error .invalid

/-- The sign of an offset: whether it is west of UTC. -/
def offsetSign : List Char → Except TimeFault (Bool × List Char)
  | [] => .error .tooShort
  | c :: cs =>
    if c = '+' then .ok (false, cs)
    else if c = '-' ∨ c = '\u2212' then .ok (true, cs)
    else .error .invalid

/-- The colon of an offset. -/
def offsetColon : List Char → Except TimeFault (List Char)
  | [] => .error .tooShort
  | c :: cs => if c = ':' then .ok cs else .error .invalid

/-- An offset with a sign, in seconds east of UTC. -/
def signedOffset (cs : List Char) : Except TimeFault (Int × List Char) := do
  let (west, cs) ← offsetSign cs
  let ((h1, h2), cs) ← offsetPair cs
  let cs ← offsetColon cs
  let ((m1, m2), cs) ← offsetPair cs
  if 6 ≤ m1 then .error .outOfRange
  else
    let seconds := (10 * h1 + h2) * 3600 + (10 * m1 + m2) * 60
    .ok (if west then -seconds else seconds, cs)

/-- The offset in front of the text, in seconds east of UTC. -/
def offset : List Char → Except TimeFault (Int × List Char)
  | [] => .error .tooShort
  | c :: cs => if c = 'Z' ∨ c = 'z' then .ok (0, cs) else signedOffset (c :: cs)

/-- The greatest offset either way, in seconds. -/
def greatestOffset : Nat := (23 * 60 + 59) * 60

/-- The instant of a text. -/
def parse (cs : List Char) : Except TimeFault Instant :=
  if Utf8.length cs < leastBytes then .error .tooShort
  else do
    let (d, cs) ← date cs
    let cs ← separator (fun c => c == 'T' || c == 't' || c == ' ') cs
    let (t, cs) ← time cs
    let (o, cs) ← offset cs
    if !cs.isEmpty then .error .tooLong
    else if greatestOffset < o.natAbs then .error .outOfRange
    else .ok (.ofCivil d t o)

/-- The instant of a string. -/
def parseString (s : String) : Except TimeFault Instant :=
  parse s.toList

end Rfc3339
end ImagePolicy
