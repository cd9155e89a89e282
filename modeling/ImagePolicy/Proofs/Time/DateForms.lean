/-
# The forms of effective dates

An effective date is spelled in six numbers with separators between them
(`EffectiveDate.Spelling`). A number is digits, with blanks before them; the year has four of them
at most or a sign and any number, and the other numbers have one or two. The date exists in a year
that the calendar reaches, and the time does too, with second 60 as a leap second. What is read are
these spellings and nothing else, each as the instant that it names
(`EffectiveDate.parse?_eq_some_iff`).

In the exact form there are no blanks and no sign, and each number has its full width
(`EffectiveDate.Exact`). So the spellings that are exact are those of twenty characters without a
blank and without a sign in front (`EffectiveDate.exact_iff`); the others are read all the same.

Key definitions: `EffectiveDate.Numeral`, `EffectiveDate.Spelling`, `EffectiveDate.Exact`.
Key theorems: `EffectiveDate.digitsUpTo_append`, `EffectiveDate.instant?_eq_some_iff`,
`EffectiveDate.parse?_eq_some_iff`, `EffectiveDate.exact_iff`.
-/
import ImagePolicy.Time.EffectiveDate
import ImagePolicy.Proofs.Text.Cuts
import ImagePolicy.Proofs.Text.DigitOrder

namespace ImagePolicy

theorem Text.digit?_eq_some_iff {c : Char} {d : Nat} :
    digit? c = some d ↔ d < 10 ∧ c = digitChar d := by
  constructor
  · intro h
    simp only [digit?, Option.ite_none_right_eq_some, Option.some.injEq] at h
    obtain ⟨⟨hlow, hhigh⟩, rfl⟩ := h
    have hsum : 48 + (c.toNat - 48) = c.toNat := by omega
    exact ⟨by omega, by rw [digitChar, hsum, Char.ofNat_toNat]⟩
  · rintro ⟨hd, rfl⟩
    exact digit?_digitChar hd

theorem Text.not_isBlank_digitChar {d : Nat} (h : d < 10) : isBlank (digitChar d) = false := by
  interval_cases d <;> rfl

namespace EffectiveDate

variable {cs rest : List Char} {ds : List Nat} {width : Nat}

/-! ### Digits -/

/-- No digit follows. -/
def Stops (rest : List Char) : Prop :=
  ∀ c, rest.head? = some c → Text.digit? c = none

theorem stops_cons {c : Char} (h : Text.digit? c = none) (rest : List Char) :
    Stops (c :: rest) := by
  intro x hx
  cases hx
  exact h

theorem digitsUpTo_eq (h : digitsUpTo width cs = (ds, rest)) :
    cs = ds.map Text.digitChar ++ rest ∧ ds.length ≤ width ∧ ∀ d ∈ ds, d < 10 := by
  induction width generalizing cs ds with
  | zero =>
    cases h
    exact ⟨rfl, Nat.le_refl 0, nofun⟩
  | succ width ih =>
    cases cs with
    | nil =>
      cases h
      exact ⟨rfl, Nat.zero_le _, nofun⟩
    | cons c cs =>
      rw [digitsUpTo] at h
      cases hdigit : Text.digit? c with
      | none =>
        rw [hdigit] at h
        cases h
        exact ⟨rfl, Nat.zero_le _, nofun⟩
      | some d =>
        rw [hdigit] at h
        cases h
        obtain ⟨hd, rfl⟩ := Text.digit?_eq_some_iff.mp hdigit
        obtain ⟨hcs, hlength, hlt⟩ := ih (rfl : digitsUpTo width cs = _)
        refine ⟨?_, Nat.succ_le_succ hlength, List.forall_mem_cons.mpr ⟨hd, hlt⟩⟩
        rw [List.map_cons, List.cons_append, ← hcs]

/-- Digits that fit are taken, up to where none follows. -/
theorem digitsUpTo_append (h : ∀ d ∈ ds, d < 10) (hwidth : ds.length ≤ width) (hrest : Stops rest) :
    digitsUpTo width (ds.map Text.digitChar ++ rest) = (ds, rest) := by
  induction width generalizing ds with
  | zero =>
    obtain rfl := List.eq_nil_of_length_eq_zero (Nat.le_zero.mp hwidth)
    rfl
  | succ width ih =>
    cases ds with
    | nil =>
      cases rest with
      | nil => rfl
      | cons c rest =>
        have hc : Text.digit? c = none := hrest c rfl
        simp only [List.map_nil, List.nil_append, digitsUpTo, hc]
    | cons d ds =>
      obtain ⟨hd, hds⟩ := List.forall_mem_cons.mp h
      simp only [List.map_cons, List.cons_append, digitsUpTo, Text.digit?_digitChar hd,
        ih hds (Nat.le_of_succ_le_succ hwidth)]

theorem number?_eq_some {n : Nat} (h : number? width cs = some (n, rest)) :
    ∃ ds, cs = ds.map Text.digitChar ++ rest ∧ ds ≠ [] ∧ ds.length ≤ width ∧ (∀ d ∈ ds, d < 10) ∧
      Text.ofDigits ds = n := by
  unfold number? at h
  split at h
  · cases h
  · next ds rest hne hdigits =>
    cases h
    obtain ⟨hcs, hlength, hlt⟩ := digitsUpTo_eq hdigits
    exact ⟨ds, hcs, hne, hlength, hlt, rfl⟩

theorem number?_append (hne : ds ≠ []) (h : ∀ d ∈ ds, d < 10) (hwidth : ds.length ≤ width)
    (hrest : Stops rest) :
    number? width (ds.map Text.digitChar ++ rest) = some (Text.ofDigits ds, rest) := by
  rw [number?, digitsUpTo_append h hwidth hrest]
  cases ds with
  | nil => exact absurd rfl hne
  | cons d ds => rfl

/-! ### Numbers -/

/-- A number as it is written: blanks, a sign or none, and digits. -/
structure Numeral where
  blanks : List Char
  sign : Option Char
  digits : List Nat

namespace Numeral

variable {w : Numeral}

/-- The text of a number. -/
def text (w : Numeral) : List Char :=
  w.blanks ++ w.sign.toList ++ w.digits.map Text.digitChar

/-- The number that the digits spell. -/
def magnitude (w : Numeral) : Nat :=
  Text.ofDigits w.digits

/-- The number with its sign. -/
def value (w : Numeral) : Int :=
  if w.sign = some '-' then -(w.magnitude : Int) else w.magnitude

/-- A number is written in digits, some of them, with nothing but blanks before. -/
structure Valid (w : Numeral) : Prop where
  blanks : ∀ c ∈ w.blanks, Text.isBlank c = true
  filled : w.digits ≠ []
  digits : ∀ d ∈ w.digits, d < 10

/-- A year without a sign has four digits at most. -/
structure IsYear (w : Numeral) : Prop extends w.Valid where
  sign : w.sign = none ∧ w.digits.length ≤ 4 ∨ w.sign = some '-' ∨ w.sign = some '+'

/-- The other numbers have two digits at most and no sign. -/
structure IsField (w : Numeral) : Prop extends w.Valid where
  sign : w.sign = none
  short : w.digits.length ≤ 2

end Numeral

theorem exists_blanks (cs : List Char) :
    ∃ blanks, (∀ c ∈ blanks, Text.isBlank c = true) ∧ cs = blanks ++ Text.trimStart cs :=
  ⟨cs.takeWhile Text.isBlank, fun _ hc => List.mem_takeWhile_imp hc,
    List.takeWhile_append_dropWhile.symm⟩

theorem trimStart_append {blanks : List Char} (h : ∀ c ∈ blanks, Text.isBlank c = true)
    (hcs : ∀ c, cs.head? = some c → Text.isBlank c = false) :
    Text.trimStart (blanks ++ cs) = cs := by
  rw [Text.trimStart, List.dropWhile_append_of_pos h]
  exact Text.dropWhile_isBlank_eq_self hcs

/-- A number starts with a digit. -/
theorem head?_digits (hne : ds ≠ []) (rest : List Char) : ∃ d ∈ ds,
    (ds.map Text.digitChar ++ rest).head? = some (Text.digitChar d) := by
  cases ds with
  | nil => exact absurd rfl hne
  | cons d ds => exact ⟨d, List.mem_cons_self, rfl⟩

theorem trimStart_digits {blanks : List Char} (h : ∀ c ∈ blanks, Text.isBlank c = true)
    (hne : ds ≠ []) (hlt : ∀ d ∈ ds, d < 10) (rest : List Char) :
    Text.trimStart (blanks ++ (ds.map Text.digitChar ++ rest)) =
      ds.map Text.digitChar ++ rest := by
  refine trimStart_append h fun c hc => ?_
  obtain ⟨d, hd, hhead⟩ := head?_digits hne rest
  rw [hhead] at hc
  cases hc
  exact Text.not_isBlank_digitChar (hlt d hd)

theorem field?_eq_some {n : Nat} (h : field? cs = some (n, rest)) :
    ∃ w : Numeral, w.IsField ∧ cs = w.text ++ rest ∧ w.magnitude = n := by
  obtain ⟨blanks, hblanks, hcs⟩ := exists_blanks cs
  obtain ⟨ds, htrim, hne, hlength, hlt, hn⟩ := number?_eq_some h
  refine ⟨⟨blanks, none, ds⟩, ⟨⟨hblanks, hne, hlt⟩, rfl, hlength⟩, ?_, hn⟩
  rw [hcs, htrim]
  simp [Numeral.text]

theorem field?_text {w : Numeral} (h : w.IsField) (hrest : Stops rest) :
    field? (w.text ++ rest) = some (w.magnitude, rest) := by
  have htext : w.text ++ rest = w.blanks ++ (w.digits.map Text.digitChar ++ rest) := by
    simp [Numeral.text, h.sign]
  rw [field?, htext, trimStart_digits h.blanks h.filled h.digits]
  exact number?_append h.filled h.digits h.short hrest

theorem year?_eq_some {n : Int} (h : year? cs = some (n, rest)) :
    ∃ w : Numeral, w.IsYear ∧ cs = w.text ++ rest ∧ w.value = n := by
  obtain ⟨blanks, hblanks, hcs⟩ := exists_blanks cs
  have hnumber : ∀ (sign : Option Char) {width : Nat} {tail : List Char} {m : Nat},
      Text.trimStart cs = sign.toList ++ tail → number? width tail = some (m, rest) →
      ∃ w : Numeral, w.Valid ∧ w.sign = sign ∧ w.digits.length ≤ width ∧ cs = w.text ++ rest ∧
        w.magnitude = m := by
    intro sign width tail m htrim hm
    obtain ⟨ds, htail, hne, hlength, hlt, hds⟩ := number?_eq_some hm
    refine ⟨⟨blanks, sign, ds⟩, ⟨hblanks, hne, hlt⟩, rfl, hlength, ?_, hds⟩
    rw [hcs, htrim, htail]
    simp [Numeral.text]
  unfold year? at h
  split at h
  · next tail htrim =>
    obtain ⟨⟨m, rest'⟩, hm, heq⟩ := Option.map_eq_some_iff.mp h
    cases heq
    obtain ⟨w, hw, hsign, -, htext, hvalue⟩ := hnumber (some '-') htrim hm
    exact ⟨w, ⟨hw, .inr (.inl hsign)⟩, htext, by rw [Numeral.value, if_pos hsign, hvalue]⟩
  · next tail htrim =>
    obtain ⟨⟨m, rest'⟩, hm, heq⟩ := Option.map_eq_some_iff.mp h
    cases heq
    obtain ⟨w, hw, hsign, -, htext, hvalue⟩ := hnumber (some '+') htrim hm
    exact ⟨w, ⟨hw, .inr (.inr hsign)⟩, htext, by simp [Numeral.value, hsign, hvalue]⟩
  · obtain ⟨⟨m, rest'⟩, hm, heq⟩ := Option.map_eq_some_iff.mp h
    cases heq
    obtain ⟨w, hw, hsign, hlength, htext, hvalue⟩ := hnumber none rfl hm
    exact ⟨w, ⟨hw, .inl ⟨hsign, hlength⟩⟩, htext, by simp [Numeral.value, hsign, hvalue]⟩

theorem year?_text {w : Numeral} (h : w.IsYear) (hrest : Stops rest) :
    year? (w.text ++ rest) = some (w.value, rest) := by
  have htext : w.text ++ rest =
      w.blanks ++ (w.sign.toList ++ (w.digits.map Text.digitChar ++ rest)) := by
    simp [Numeral.text]
  have hlong : w.digits.length ≤ (w.digits.map Text.digitChar ++ rest).length := by
    simp
  rw [year?, htext]
  rcases h.sign with ⟨hsign, hlength⟩ | hsign | hsign
  · obtain ⟨d, hd, hhead⟩ := head?_digits h.filled rest
    have hnumber := number?_append h.filled h.digits hlength hrest
    rw [hsign, Option.toList_none, List.nil_append,
      trimStart_digits h.blanks h.filled h.digits]
    have hno : ∀ {c : Char} {tail : List Char}, Text.digit? c = none →
        w.digits.map Text.digitChar ++ rest ≠ c :: tail := by
      intro c tail hnone heq
      rw [heq] at hhead
      cases hhead
      rw [Text.digit?_digitChar (h.digits d hd)] at hnone
      cases hnone
    split
    · next heq => exact absurd heq (hno rfl)
    · next heq => exact absurd heq (hno rfl)
    · rw [hnumber]
      simp [Numeral.value, hsign, Numeral.magnitude]
  · have hnumber := number?_append h.filled h.digits hlong hrest
    rw [hsign, trimStart_append h.blanks (by simp; decide)]
    simp only [Option.toList_some, List.singleton_append, hnumber]
    simp [Numeral.value, hsign, Numeral.magnitude]
  · have hnumber := number?_append h.filled h.digits hlong hrest
    rw [hsign, trimStart_append h.blanks (by simp; decide)]
    simp only [Option.toList_some, List.singleton_append, hnumber]
    simp [Numeral.value, hsign, Numeral.magnitude]

theorem separator?_cons (sep : Char) (rest : List Char) :
    separator? sep (sep :: rest) = some rest :=
  if_pos rfl

theorem separator?_eq_some_iff {sep : Char} : separator? sep cs = some rest ↔ cs = sep :: rest := by
  cases cs with
  | nil => simp [separator?]
  | cons c cs =>
    by_cases hc : c = sep
    · simp [separator?, hc]
    · simp [separator?, hc]

/-! ### Dates and times -/

/-- The time of day that a clock's face shows in whole seconds: 60 is a leap second. -/
def timeOnFace (hour minute second : Nat) : TimeOfDay :=
  if second = 60 then ⟨hour, minute, 59, nanosPerSecond⟩ else ⟨hour, minute, second, 0⟩

theorem valid_timeOnFace_iff {hour minute second : Nat} :
    (timeOnFace hour minute second).Valid ↔ hour ≤ 23 ∧ minute ≤ 59 ∧ second ≤ 60 := by
  unfold timeOnFace TimeOfDay.Valid
  by_cases hleap : second = 60
  · simp [hleap, nanosPerSecond]
  · rw [if_neg hleap]
    simp only [nanosPerSecond]
    omega

theorem instant?_eq_some_iff {d : Date} {hour minute second : Nat} {i : Instant} :
    instant? d hour minute second = some i ↔
      (firstYear ≤ d.year ∧ d.year ≤ lastYear) ∧ d.Valid ∧
      (hour ≤ 23 ∧ minute ≤ 59 ∧ second ≤ 60) ∧
      Instant.ofCivil d (timeOnFace hour minute second) 0 = i := by
  rw [← valid_timeOnFace_iff]
  unfold instant?
  simp only [Option.ite_none_right_eq_some, Option.some.injEq, and_assoc]
  rfl

/-- The numbers that an effective date is spelled in. -/
structure Spelling where
  year : Numeral
  month : Numeral
  day : Numeral
  hour : Numeral
  minute : Numeral
  second : Numeral

namespace Spelling

variable {w : Spelling} {i : Instant}

/-- The text of an effective date. -/
def text (w : Spelling) : List Char :=
  w.year.text ++ '-' :: (w.month.text ++ '-' :: (w.day.text ++ 'T' :: (w.hour.text ++ ':' ::
    (w.minute.text ++ ':' :: (w.second.text ++ ['Z'])))))

/-- The date that is spelled. -/
def date (w : Spelling) : Date :=
  ⟨w.year.value, w.month.magnitude, w.day.magnitude⟩

/-- The instant that is spelled. -/
def instant (w : Spelling) : Instant :=
  .ofCivil w.date (timeOnFace w.hour.magnitude w.minute.magnitude w.second.magnitude) 0

/-- The numbers are written as numbers. -/
structure Written (w : Spelling) : Prop where
  year : w.year.IsYear
  month : w.month.IsField
  day : w.day.IsField
  hour : w.hour.IsField
  minute : w.minute.IsField
  second : w.second.IsField

/-- Date and time exist. -/
structure Real (w : Spelling) : Prop where
  date : w.date.Valid
  time : w.hour.magnitude ≤ 23 ∧ w.minute.magnitude ≤ 59 ∧ w.second.magnitude ≤ 60

/-- The numbers are written as such, date and time exist, and the calendar reaches the year. -/
structure Valid (w : Spelling) : Prop extends w.Written, w.Real where
  reached : firstYear ≤ w.year.value ∧ w.year.value ≤ lastYear

theorem Written.parse?_text (h : w.Written) : parse? w.text =
    instant? w.date w.hour.magnitude w.minute.magnitude w.second.magnitude := by
  have hdash : ∀ rest, Stops ('-' :: rest) := stops_cons rfl
  have hT : ∀ rest, Stops ('T' :: rest) := stops_cons rfl
  have hcolon : ∀ rest, Stops (':' :: rest) := stops_cons rfl
  have hZ : ∀ rest, Stops ('Z' :: rest) := stops_cons rfl
  simp only [parse?, text, bind, year?_text h.year (hdash _), field?_text h.month (hdash _),
    field?_text h.day (hT _), field?_text h.hour (hcolon _), field?_text h.minute (hcolon _),
    field?_text h.second (hZ _), separator?_cons, Option.bind_some, List.isEmpty_nil, if_true]
  rfl

end Spelling

/-- **What is read is spelled, as the instant that it names.** -/
theorem parse?_eq_some_iff {i : Instant} :
    parse? cs = some i ↔ ∃ w : Spelling, w.Valid ∧ w.text = cs ∧ w.instant = i := by
  constructor
  · intro h
    unfold parse? at h
    simp only [bind, Option.bind_eq_some_iff, Prod.exists, separator?_eq_some_iff] at h
    obtain ⟨year, cs₁, hyear, cs₂, rfl, month, cs₃, hmonth, cs₄, rfl, day, cs₅, hday, cs₆, rfl,
      hour, cs₇, hhour, cs₈, rfl, minute, cs₉, hminute, cs₁₀, rfl, second, cs₁₁, hsecond, cs₁₂,
      rfl, h⟩ := h
    obtain ⟨hend, hinstant⟩ := Option.ite_none_right_eq_some.mp h
    obtain rfl := List.isEmpty_iff.mp hend
    obtain ⟨year, hy, rfl, rfl⟩ := year?_eq_some hyear
    obtain ⟨month, hmo, rfl, rfl⟩ := field?_eq_some hmonth
    obtain ⟨day, hd, rfl, rfl⟩ := field?_eq_some hday
    obtain ⟨hour, hh, rfl, rfl⟩ := field?_eq_some hhour
    obtain ⟨minute, hmi, rfl, rfl⟩ := field?_eq_some hminute
    obtain ⟨second, hs, rfl, rfl⟩ := field?_eq_some hsecond
    obtain ⟨hreached, hdate, htime, hi⟩ := instant?_eq_some_iff.mp hinstant
    exact ⟨⟨year, month, day, hour, minute, second⟩,
      ⟨⟨hy, hmo, hd, hh, hmi, hs⟩, ⟨hdate, htime⟩, hreached⟩, rfl, hi⟩
  · rintro ⟨w, hw, rfl, rfl⟩
    rw [hw.parse?_text, instant?_eq_some_iff]
    exact ⟨hw.reached, hw.date, hw.time, rfl⟩

/-! ### The exact form -/

/-- A number is written in so many digits, and nothing stands before them. -/
structure Numeral.Full (width : Nat) (w : Numeral) : Prop where
  blanks : w.blanks = []
  sign : w.sign = none
  length : w.digits.length = width

/-- Each number of a spelling is as wide as its place. -/
structure Spelling.Full (w : Spelling) : Prop where
  year : w.year.Full 4
  month : w.month.Full 2
  day : w.day.Full 2
  hour : w.hour.Full 2
  minute : w.minute.Full 2
  second : w.second.Full 2

/-- A text is a date and a time that exist, in the form `YYYY-MM-DDTHH:MM:SSZ`. -/
def Exact (cs : List Char) : Prop :=
  ∃ w : Spelling, w.Written ∧ w.Full ∧ w.Real ∧ w.text = cs

theorem Numeral.Full.text_eq {w : Numeral} (h : w.Full width) :
    w.text = w.digits.map Text.digitChar := by
  simp [Numeral.text, h.blanks, h.sign]

/-- A number of full width is what its digits spell, and fits them. -/
theorem Numeral.Full.value_eq {w : Numeral} (h : w.Full width) : w.value = w.magnitude := by
  simp [Numeral.value, h.sign]

theorem Numeral.Full.magnitude_lt {w : Numeral} (h : w.Full width) (hw : w.Valid) :
    w.magnitude < 10 ^ width := by
  rw [← h.length]
  exact Text.ofDigits_lt hw.digits

theorem Numeral.Full.isYear {w : Numeral} (h : w.Full 4) (hw : w.Valid) : w.IsYear :=
  ⟨hw, .inl ⟨h.sign, h.length.le⟩⟩

theorem Numeral.Full.isField {w : Numeral} (h : w.Full 2) (hw : w.Valid) : w.IsField :=
  ⟨hw, h.sign, h.length.le⟩

theorem Numeral.length_text (w : Numeral) :
    w.text.length = w.blanks.length + w.sign.toList.length + w.digits.length := by
  simp only [Numeral.text, List.length_append, List.length_map]

namespace Spelling

variable {w : Spelling}

theorem length_text (w : Spelling) : w.text.length = w.year.text.length + w.month.text.length +
    w.day.text.length + w.hour.text.length + w.minute.text.length + w.second.text.length + 6 := by
  simp only [text, List.length_append, List.length_cons, List.length_nil]
  omega

/-- The numbers of a spelling. -/
def numbers (w : Spelling) : List Numeral :=
  [w.year, w.month, w.day, w.hour, w.minute, w.second]

/-- What a spelling holds stands in a number or separates two, or it is the end. -/
theorem mem_text_iff {c : Char} : c ∈ w.text ↔
    (∃ n ∈ w.numbers, c ∈ n.text) ∨ c = '-' ∨ c = 'T' ∨ c = ':' ∨ c = 'Z' := by
  simp only [text, numbers, List.mem_append, List.mem_cons, List.not_mem_nil, or_false,
    exists_eq_or_imp, exists_eq_left]
  tauto

theorem Written.valid_of_mem (h : w.Written) : ∀ n ∈ w.numbers, n.Valid := by
  simpa [numbers] using ⟨h.year.toValid, h.month.toValid, h.day.toValid, h.hour.toValid,
    h.minute.toValid, h.second.toValid⟩

theorem Full.text_eq_of_mem (h : w.Full) :
    ∀ n ∈ w.numbers, n.text = n.digits.map Text.digitChar := by
  simpa [numbers] using ⟨h.year.text_eq, h.month.text_eq, h.day.text_eq, h.hour.text_eq,
    h.minute.text_eq, h.second.text_eq⟩

theorem Full.length_text (h : w.Full) : w.text.length = 20 := by
  simp [Spelling.length_text, h.year.text_eq, h.month.text_eq, h.day.text_eq, h.hour.text_eq,
    h.minute.text_eq, h.second.text_eq, h.year.length, h.month.length, h.day.length,
    h.hour.length, h.minute.length, h.second.length]

/-- The calendar reaches every year of four digits. -/
theorem Full.valid (h : w.Full) (hw : w.Written) (hreal : w.Real) : w.Valid := by
  have hyear := h.year.magnitude_lt hw.year.toValid
  refine ⟨hw, hreal, ?_⟩
  rw [h.year.value_eq]
  unfold firstYear lastYear
  omega

/-- Without blanks in front of its numbers a spelling has none at all. -/
theorem Full.not_isBlank (h : w.Full) (hw : w.Written) :
    ∀ c ∈ w.text, Text.isBlank c = false := by
  intro c hc
  rcases mem_text_iff.mp hc with ⟨n, hn, hc⟩ | rfl | rfl | rfl | rfl
  · rw [h.text_eq_of_mem n hn] at hc
    obtain ⟨d, hd, rfl⟩ := List.mem_map.mp hc
    exact Text.not_isBlank_digitChar ((hw.valid_of_mem n hn).digits d hd)
  all_goals rfl

/-- A spelling without blanks has no blanks in front of a number. -/
theorem Written.blanks_eq_nil (hw : w.Written) (h : ∀ c ∈ w.text, Text.isBlank c = false) :
    ∀ n ∈ w.numbers, n.blanks = [] := by
  intro n hn
  refine List.eq_nil_iff_forall_not_mem.mpr fun c hc => ?_
  have hmem : c ∈ n.text := List.mem_append_left _ (List.mem_append_left _ hc)
  have hblank := (hw.valid_of_mem n hn).blanks c hc
  rw [h c (mem_text_iff.mpr (.inl ⟨n, hn, hmem⟩))] at hblank
  cases hblank

end Spelling

/-- **The exact form among what is read**: twenty characters, none of them blank, and no sign in
front. -/
theorem exact_iff : Exact cs ↔ (parse? cs).isSome ∧ cs.length = 20 ∧
    (∀ c ∈ cs, Text.isBlank c = false) ∧ cs.head? ≠ some '+' ∧ cs.head? ≠ some '-' := by
  constructor
  · rintro ⟨w, hw, hfull, hreal, rfl⟩
    obtain ⟨d, hd, hhead⟩ := head?_digits hw.year.filled
      ('-' :: (w.month.text ++ '-' :: (w.day.text ++ 'T' :: (w.hour.text ++ ':' ::
        (w.minute.text ++ ':' :: (w.second.text ++ ['Z']))))))
    have hdigit : ∀ c, w.text.head? = some c → (Text.digit? c).isSome := by
      intro c hc
      rw [Spelling.text, hfull.year.text_eq, hhead] at hc
      cases hc
      rw [Text.digit?_digitChar (hw.year.digits d hd)]
      rfl
    refine ⟨?_, hfull.length_text, hfull.not_isBlank hw, fun h => ?_, fun h => ?_⟩
    · rw [parse?_eq_some_iff.mpr ⟨w, hfull.valid hw hreal, rfl, rfl⟩]
      rfl
    · exact absurd (hdigit _ h) (by decide)
    · exact absurd (hdigit _ h) (by decide)
  · rintro ⟨hsome, hlength, hblank, hplus, hminus⟩
    obtain ⟨i, hi⟩ := Option.isSome_iff_exists.mp hsome
    obtain ⟨w, hw, rfl, -⟩ := parse?_eq_some_iff.mp hi
    have hbare := hw.toWritten.blanks_eq_nil hblank
    simp only [Spelling.numbers, List.forall_mem_cons] at hbare
    obtain ⟨hyear, hmonth, hday, hhour, hminute, hsecond, -⟩ := hbare
    have hsign : ∀ c, w.year.sign = some c → w.text.head? = some c := by
      intro c hc
      simp [Spelling.text, Numeral.text, hyear, hc]
    have hunsigned : w.year.sign = none ∧ w.year.digits.length ≤ 4 := by
      rcases hw.year.sign with h | h | h
      · exact h
      · exact absurd (hsign _ h) hminus
      · exact absurd (hsign _ h) hplus
    -- no number is wider than its place, and together they are as wide as all places
    simp only [Spelling.length_text, Numeral.length_text, hyear, hmonth, hday, hhour, hminute,
      hsecond, hunsigned.1, hw.month.sign, hw.day.sign, hw.hour.sign, hw.minute.sign,
      hw.second.sign, List.length_nil, Option.toList_none, Nat.zero_add] at hlength
    have hmo := hw.month.short
    have hd := hw.day.short
    have hh := hw.hour.short
    have hmi := hw.minute.short
    have hs := hw.second.short
    refine ⟨w, hw.toWritten, ⟨⟨hyear, hunsigned.1, ?_⟩, ⟨hmonth, hw.month.sign, ?_⟩,
      ⟨hday, hw.day.sign, ?_⟩, ⟨hhour, hw.hour.sign, ?_⟩, ⟨hminute, hw.minute.sign, ?_⟩,
      ⟨hsecond, hw.second.sign, ?_⟩⟩, hw.toReal, rfl⟩ <;>
      omega

end EffectiveDate
end ImagePolicy
