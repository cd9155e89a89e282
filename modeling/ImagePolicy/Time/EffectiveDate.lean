/-
# Effective dates

The form `YYYY-MM-DDTHH:MM:SSZ` in which rules say from when on they block. It is read field by
field: blanks may stand before each number, a number may be shorter than its field, and the year
may carry a sign and then have any number of digits. The separators and the final `Z` are exact,
and nothing may follow. Second 60 is a leap second. The date exists, in a year that the calendar
reaches.

Key definitions: `EffectiveDate.parse?`.
-/
import ImagePolicy.Time.Instant
import ImagePolicy.Text.Blank

namespace ImagePolicy
namespace EffectiveDate

/-- The first year of the calendar. -/
def firstYear : Int := -262143

/-- The last year of the calendar. -/
def lastYear : Int := 262142

/-- At most so many digits in front of a text. -/
def digitsUpTo : Nat → List Char → List Nat × List Char
  | 0, cs => ([], cs)
  | _ + 1, [] => ([], [])
  | width + 1, c :: cs =>
    match Text.digit? c with
    | some d => let (ds, rest) := digitsUpTo width cs; (d :: ds, rest)
    | none => ([], c :: cs)

/-- A number of at least one and at most so many digits. -/
def number? (width : Nat) (cs : List Char) : Option (Nat × List Char) :=
  match digitsUpTo width cs with
  | ([], _) => none
  | (ds, rest) => some (Text.ofDigits ds, rest)

/-- A field of two digits at most, after blanks. -/
def field? (cs : List Char) : Option (Nat × List Char) :=
  number? 2 (Text.trimStart cs)

/-- The year, after blanks. -/
def year? (cs : List Char) : Option (Int × List Char) :=
  match Text.trimStart cs with
  | '-' :: cs => (number? cs.length cs).map fun (n, rest) => (-(n : Int), rest)
  | '+' :: cs => (number? cs.length cs).map fun (n, rest) => ((n : Int), rest)
  | cs => (number? 4 cs).map fun (n, rest) => ((n : Int), rest)

/-- Takes a separator. -/
def separator? (sep : Char) : List Char → Option (List Char)
  | c :: cs => if c = sep then some cs else none
  | [] => none

/-- The instant of date and time fields, if they are in range. -/
def instant? (d : Date) (hour minute second : Nat) : Option Instant :=
  let t : TimeOfDay :=
    if second = 60 then ⟨hour, minute, 59, nanosPerSecond⟩ else ⟨hour, minute, second, 0⟩
  if firstYear ≤ d.year ∧ d.year ≤ lastYear ∧ d.Valid ∧ t.Valid then some (.ofCivil d t 0) else none

/-- The instant of a text. -/
def parse? (cs : List Char) : Option Instant := do
  let (year, cs) ← year? cs
  let cs ← separator? '-' cs
  let (month, cs) ← field? cs
  let cs ← separator? '-' cs
  let (day, cs) ← field? cs
  let cs ← separator? 'T' cs
  let (hour, cs) ← field? cs
  let cs ← separator? ':' cs
  let (minute, cs) ← field? cs
  let cs ← separator? ':' cs
  let (second, cs) ← field? cs
  let cs ← separator? 'Z' cs
  if cs.isEmpty then instant? ⟨year, month, day⟩ hour minute second else none

/-- The instant of a string. -/
def parseString? (s : String) : Option Instant :=
  parse? s.toList

end EffectiveDate
end ImagePolicy
