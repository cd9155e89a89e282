/-
# The forms of points in time

A point in time is spelled as a date, a time of day and an offset (`Rfc3339.Spelling`). Date and
time have all their digits; the time may have a part of a second in any number of digits, of which
nine count; and the offset is a mark for UTC or hours and minutes east or west of it. The date
exists and so does the time, with second 60 as a leap second, and the offset is less than a day.
What is read are these spellings and nothing else (`Rfc3339.parse_eq_ok_iff`).

The instant is that of the date and the time less the offset, which makes it one of UTC. So one
instant has spellings with different local times, and nothing is left of these when instants are
compared.

Key definitions: `Rfc3339.Zone`, `Rfc3339.Spelling`, `Rfc3339.Names`.
Key theorems: `Rfc3339.number_eq_ok_iff`, `Rfc3339.date_eq_ok_iff`, `Rfc3339.fraction_eq_ok`,
`Rfc3339.offset_eq_ok_iff`, `Rfc3339.parse_eq_ok_iff`.
-/
import ImagePolicy.Proofs.Time.DateForms
import ImagePolicy.Proofs.Time.WholeSeconds

namespace ImagePolicy
namespace Rfc3339

variable {cs rest : List Char} {ds : List Nat} {width n : Nat}

/-! ### Numbers and separators -/

theorem bind_eq_ok_iff {ε α β : Type} {x : Except ε α} {f : α → Except ε β} {b : β} :
    x >>= f = .ok b ↔ ∃ a, x = .ok a ∧ f a = .ok b := by
  refine ⟨eq_ok_of_bind, ?_⟩
  rintro ⟨a, rfl, h⟩
  exact h

theorem number_eq_ok {m : Nat} (h : number n width cs = .ok (m, rest)) :
    ∃ ds : List Nat, cs = ds.map Text.digitChar ++ rest ∧ ds.length = width ∧ (∀ d ∈ ds, d < 10) ∧
      ds.foldl (fun n d => 10 * n + d) n = m := by
  induction width generalizing n cs with
  | zero =>
    cases h
    exact ⟨[], rfl, rfl, nofun, rfl⟩
  | succ width ih =>
    cases cs with
    | nil => cases h
    | cons c cs =>
      rw [number] at h
      cases hdigit : Text.digit? c with
      | none =>
        rw [hdigit] at h
        cases h
      | some d =>
        rw [hdigit] at h
        obtain ⟨hd, rfl⟩ := Text.digit?_eq_some_iff.mp hdigit
        obtain ⟨ds, rfl, hlength, hlt, hm⟩ := ih h
        exact ⟨d :: ds, rfl, congrArg Nat.succ hlength, List.forall_mem_cons.mpr ⟨hd, hlt⟩, hm⟩

/-- A number is read just if it is there in full width. -/
theorem number_eq_ok_iff (hw : width ≠ 0) :
    number 0 width cs = .ok (n, rest) ↔ n < 10 ^ width ∧ cs = Text.padded width n ++ rest := by
  constructor
  · intro h
    obtain ⟨ds, rfl, rfl, hlt, hn⟩ := number_eq_ok h
    have hspelled : Text.ofDigits ds = n := hn
    have hne : ds ≠ [] := by
      rintro rfl
      exact hw rfl
    rw [← hspelled, Text.padded_ofDigits hne hlt]
    exact ⟨Text.ofDigits_lt hlt, rfl⟩
  · rintro ⟨hlt, rfl⟩
    exact number_padded hw hlt rest

theorem separator_eq_ok_iff {p : Char → Bool} :
    separator p cs = .ok rest ↔ ∃ c, p c = true ∧ cs = c :: rest := by
  cases cs with
  | nil => simp [separator]
  | cons c cs =>
    by_cases hc : p c = true
    · simp [separator, hc]
    · simp only [separator, if_neg hc, List.cons.injEq, reduceCtorEq, false_iff]
      rintro ⟨x, hx, rfl, -⟩
      exact hc hx

/-- A separator that is one character. -/
theorem separator_beq_eq_ok_iff {sep : Char} :
    separator (· == sep) cs = .ok rest ↔ cs = sep :: rest := by
  rw [separator_eq_ok_iff]
  simp only [beq_iff_eq, exists_eq_left]

/-! ### Dates -/

/-- **A date is read** just if it is there, exists, and has a year of four digits. -/
theorem date_eq_ok_iff {d : Date} : date cs = .ok (d, rest) ↔
    d.Valid ∧ (0 ≤ d.year ∧ d.year ≤ 9999) ∧ cs = Instant.renderDate d ++ rest := by
  constructor
  · intro h
    simp only [date, bind_eq_ok_iff, Prod.exists, number_eq_ok_iff four_ne_zero,
      number_eq_ok_iff two_ne_zero, separator_beq_eq_ok_iff] at h
    obtain ⟨year, cs₁, ⟨hy, rfl⟩, cs₂, rfl, month, cs₃, ⟨-, rfl⟩, cs₄, rfl, day, cs₅, ⟨-, rfl⟩,
      h⟩ := h
    split at h
    · next hvalid =>
      cases h
      have hrange : 0 ≤ (year : Int) ∧ (year : Int) ≤ 9999 := by omega
      refine ⟨hvalid, hrange, ?_⟩
      simp only [Instant.renderDate, Instant.renderYear, if_pos hrange, Int.toNat_natCast,
        List.append_assoc, List.cons_append]
    · cases h
  · rintro ⟨hvalid, ⟨h0, h1⟩, rfl⟩
    exact date_renderDate hvalid h0 h1 rest

/-! ### Parts of a second -/

/-- The text of a part of a second: a point and digits, or nothing. -/
def fractionText (ds : List Nat) : List Char :=
  if ds = [] then [] else '.' :: ds.map Text.digitChar

/-- Neither a digit nor a point follows. -/
def Ends (rest : List Char) : Prop :=
  ∀ c, rest.head? = some c → Text.digit? c = none ∧ c ≠ '.'

theorem leadingDigits_eq (h : leadingDigits cs = (ds, rest)) :
    cs = ds.map Text.digitChar ++ rest ∧ ∀ d ∈ ds, d < 10 := by
  induction cs generalizing ds with
  | nil =>
    cases h
    exact ⟨rfl, nofun⟩
  | cons c cs ih =>
    rw [leadingDigits] at h
    cases hdigit : Text.digit? c with
    | none =>
      rw [hdigit] at h
      cases h
      exact ⟨rfl, nofun⟩
    | some d =>
      rw [hdigit] at h
      cases h
      obtain ⟨hd, rfl⟩ := Text.digit?_eq_some_iff.mp hdigit
      obtain ⟨hcs, hlt⟩ := ih (rfl : leadingDigits cs = _)
      refine ⟨?_, List.forall_mem_cons.mpr ⟨hd, hlt⟩⟩
      rw [List.map_cons, List.cons_append, ← hcs]

theorem leadingDigits_append (h : ∀ d ∈ ds, d < 10) (hrest : Ends rest) :
    leadingDigits (ds.map Text.digitChar ++ rest) = (ds, rest) := by
  induction ds with
  | nil =>
    cases rest with
    | nil => rfl
    | cons c rest =>
      have hc : Text.digit? c = none := (hrest c rfl).1
      simp only [List.map_nil, List.nil_append, leadingDigits, hc]
  | cons d ds ih =>
    obtain ⟨hd, hds⟩ := List.forall_mem_cons.mp h
    simp only [List.map_cons, List.cons_append, leadingDigits, Text.digit?_digitChar hd, ih hds]

theorem fraction_eq_ok {nano : Nat} (h : fraction cs = .ok (nano, rest)) :
    ∃ ds : List Nat, (∀ d ∈ ds, d < 10) ∧ cs = fractionText ds ++ rest ∧ nanosOf ds = nano := by
  unfold fraction at h
  split at h
  · next cs =>
    split at h
    · cases h
    · cases h
    · next digits rest' hend hother hdigits =>
      cases h
      obtain ⟨rfl, hlt⟩ := leadingDigits_eq hdigits
      have hsome : digits ≠ [] := by
        rintro rfl
        cases rest with
        | nil => exact hend rfl rfl
        | cons c rest => exact hother c rest rfl rfl
      refine ⟨digits, hlt, ?_, rfl⟩
      rw [fractionText, if_neg hsome, List.cons_append]
  · cases h
    exact ⟨[], nofun, rfl, rfl⟩

theorem fraction_append (h : ∀ d ∈ ds, d < 10) (hrest : Ends rest) :
    fraction (fractionText ds ++ rest) = .ok (nanosOf ds, rest) := by
  by_cases hds : ds = []
  · subst hds
    show fraction rest = .ok (0, rest)
    cases rest with
    | nil => rfl
    | cons c rest =>
      have hpoint : c ≠ '.' := (hrest c rfl).2
      unfold fraction
      split
      · next heq => exact absurd (List.cons.inj heq).1 hpoint
      · rfl
  · rw [fractionText, if_neg hds, List.cons_append, fraction, leadingDigits_append h hrest]
    cases ds with
    | nil => exact absurd rfl hds
    | cons d ds => rfl

/-- A part of a second is less than one. -/
theorem nanosOf_lt (h : ∀ d ∈ ds, d < 10) : nanosOf ds < nanosPerSecond := by
  have hkept : ∀ d ∈ ds.take 9, d < 10 := fun d hd => h d (List.mem_of_mem_take hd)
  have hlength : (ds.take 9).length ≤ 9 := List.length_take_le 9 ds
  have hpos : 0 < 10 ^ (9 - (ds.take 9).length) := Nat.pow_pos (by decide)
  calc nanosOf ds = Text.ofDigits (ds.take 9) * 10 ^ (9 - (ds.take 9).length) := rfl
    _ < 10 ^ (ds.take 9).length * 10 ^ (9 - (ds.take 9).length) :=
      Nat.mul_lt_mul_of_pos_right (Text.ofDigits_lt hkept) hpos
    _ = 10 ^ 9 := by rw [← Nat.pow_add, Nat.add_sub_cancel' hlength]
    _ = nanosPerSecond := rfl

/-! ### Times of day -/

/-- A time of day as it is written: what the clock's face shows and the digits behind the point. -/
structure Face where
  hour : Nat
  minute : Nat
  second : Nat
  fraction : List Nat

namespace Face

variable {f : Face}

/-- The text of a time of day. -/
def text (f : Face) : List Char :=
  Text.padded 2 f.hour ++ ':' :: (Text.padded 2 f.minute ++ ':' :: (Text.padded 2 f.second ++
    fractionText f.fraction))

/-- The time of day that the face shows: 60 is a leap second. -/
def timeOfDay (f : Face) : TimeOfDay :=
  if f.second = 60 then ⟨f.hour, f.minute, 59, nanosOf f.fraction + nanosPerSecond⟩
  else ⟨f.hour, f.minute, f.second, nanosOf f.fraction⟩

/-- The time of day exists. -/
structure Valid (f : Face) : Prop where
  hour : f.hour ≤ 23
  minute : f.minute ≤ 59
  second : f.second ≤ 60
  digits : ∀ d ∈ f.fraction, d < 10

theorem valid_timeOfDay_iff (h : ∀ d ∈ f.fraction, d < 10) : f.timeOfDay.Valid ↔ f.Valid := by
  have hnano : nanosOf f.fraction < nanosPerSecond := nanosOf_lt h
  have hvalid : f.timeOfDay.Valid ↔ f.hour ≤ 23 ∧ f.minute ≤ 59 ∧ f.second ≤ 60 := by
    unfold timeOfDay TimeOfDay.Valid
    by_cases hleap : f.second = 60
    · simp only [if_pos hleap, true_and]
      omega
    · simp only [if_neg hleap]
      omega
  rw [hvalid]
  exact ⟨fun ⟨hh, hm, hs⟩ => ⟨hh, hm, hs, h⟩, fun hf => ⟨hf.hour, hf.minute, hf.second⟩⟩

end Face

theorem time_eq_ok {t : TimeOfDay} (h : time cs = .ok (t, rest)) :
    ∃ f : Face, f.Valid ∧ cs = f.text ++ rest ∧ f.timeOfDay = t := by
  simp only [time, bind_eq_ok_iff, Prod.exists, number_eq_ok_iff two_ne_zero,
    separator_beq_eq_ok_iff] at h
  obtain ⟨hour, cs₁, ⟨-, rfl⟩, cs₂, rfl, minute, cs₃, ⟨-, rfl⟩, cs₄, rfl, second, cs₅, ⟨-, rfl⟩,
    nano, cs₆, hfraction, h⟩ := h
  obtain ⟨ds, hds, rfl, rfl⟩ := fraction_eq_ok hfraction
  let f : Face := ⟨hour, minute, second, ds⟩
  change (if f.timeOfDay.Valid then Except.ok (f.timeOfDay, cs₆) else .error TimeFault.outOfRange) =
    .ok (t, rest) at h
  split at h
  · next hvalid =>
    cases h
    refine ⟨f, (Face.valid_timeOfDay_iff hds).mp hvalid, ?_, rfl⟩
    simp only [Face.text, f, List.append_assoc, List.cons_append]
  · cases h

theorem time_text {f : Face} (h : f.Valid) (hrest : Ends rest) :
    time (f.text ++ rest) = .ok (f.timeOfDay, rest) := by
  have hhour : f.hour < 10 ^ 2 := Nat.lt_of_le_of_lt h.hour (by decide)
  have hminute : f.minute < 10 ^ 2 := Nat.lt_of_le_of_lt h.minute (by decide)
  have hsecond : f.second < 10 ^ 2 := Nat.lt_of_le_of_lt h.second (by decide)
  have hvalid : f.timeOfDay.Valid := (Face.valid_timeOfDay_iff h.digits).mpr h
  simp only [time, Face.text, List.append_assoc, List.cons_append, bind, Except.bind,
    number_padded two_ne_zero hhour, number_padded two_ne_zero hminute,
    number_padded two_ne_zero hsecond, separator, beq_self_eq_true, if_true,
    fraction_append h.digits hrest]
  exact if_pos hvalid

/-! ### Offsets -/

/-- The signs of offsets; the minus may be a true one. -/
def IsSign (sign : Char) : Prop :=
  sign = '+' ∨ sign = '-' ∨ sign = '\u2212'

/-- An offset as it is written: a mark for UTC, or a sign with hours and minutes. -/
inductive Zone where
  | utc (mark : Char)
  | shifted (sign : Char) (hours minutes : Nat)

namespace Zone

/-- The text of an offset. -/
def text : Zone → List Char
  | utc mark => [mark]
  | shifted sign hours minutes =>
    sign :: (Text.padded 2 hours ++ ':' :: Text.padded 2 minutes)

/-- UTC has its mark and any other offset a sign. -/
def Marked : Zone → Prop
  | utc mark => mark = 'Z' ∨ mark = 'z'
  | shifted sign _ _ => IsSign sign

/-- The hours of an offset are so many at most, and the minutes do not make up an hour. -/
def Fits (most : Nat) : Zone → Prop
  | utc _ => True
  | shifted _ hours minutes => hours ≤ most ∧ minutes ≤ 59

theorem Fits.mono {most more : Nat} {z : Zone} (h : z.Fits most) (hle : most ≤ more) :
    z.Fits more := by
  cases z with
  | utc mark => trivial
  | shifted sign hours minutes => exact ⟨Nat.le_trans h.1 hle, h.2⟩

/-- An offset is marked as one and less than a day. -/
structure Valid (z : Zone) : Prop where
  marked : z.Marked
  fits : z.Fits 23

/-- The seconds east of UTC. -/
def seconds : Zone → Int
  | utc _ => 0
  | shifted sign hours minutes =>
    if sign = '+' then (hours * 3600 + minutes * 60 : Nat) else -(hours * 3600 + minutes * 60 : Nat)

theorem ends_text {z : Zone} (h : z.Marked) (rest : List Char) : Ends (z.text ++ rest) := by
  intro c hc
  cases z with
  | utc mark =>
    cases hc
    rcases h with rfl | rfl
    · exact ⟨rfl, by decide⟩
    · exact ⟨rfl, by decide⟩
  | shifted sign hours minutes =>
    cases hc
    rcases h with rfl | rfl | rfl
    · exact ⟨rfl, by decide⟩
    · exact ⟨rfl, by decide⟩
    · exact ⟨rfl, by decide⟩

/-- An offset in two places each is less than a day just if it is not beyond the greatest. -/
theorem fits_iff {z : Zone} (h : z.Fits 99) : z.Fits 23 ↔ ¬greatestOffset < z.seconds.natAbs := by
  have hgreatest : greatestOffset = 86340 := rfl
  cases z with
  | utc mark => exact iff_of_true trivial (by simp [seconds])
  | shifted sign hours minutes =>
    obtain ⟨-, hminutes⟩ := h
    rw [Fits, hgreatest, seconds]
    split <;> omega

end Zone

theorem offsetPair_eq_ok_iff {a b : Nat} : offsetPair cs = .ok ((a, b), rest) ↔
    a < 10 ∧ b < 10 ∧ cs = Text.digitChar a :: Text.digitChar b :: rest := by
  constructor
  · intro h
    unfold offsetPair at h
    split at h
    · cases h
    · split at h <;> cases h
    · split at h
      · next hx hy =>
        cases h
        obtain ⟨ha, rfl⟩ := Text.digit?_eq_some_iff.mp hx
        obtain ⟨hb, rfl⟩ := Text.digit?_eq_some_iff.mp hy
        exact ⟨ha, hb, rfl⟩
      · cases h
  · rintro ⟨ha, hb, rfl⟩
    simp only [offsetPair, Text.digit?_digitChar ha, Text.digit?_digitChar hb]

/-- Two digits are a number in two places. -/
theorem padded_two {a b : Nat} (ha : a < 10) (hb : b < 10) :
    Text.padded 2 (10 * a + b) = [Text.digitChar a, Text.digitChar b] := by
  have hlt : ∀ d ∈ [a, b], d < 10 := by simp [ha, hb]
  have hspelled : Text.ofDigits [a, b] = 10 * a + b := by simp [Text.ofDigits]
  rw [← hspelled]
  exact Text.padded_ofDigits (List.cons_ne_nil a [b]) hlt

theorem offsetSign_eq_ok_iff {west : Bool} : offsetSign cs = .ok (west, rest) ↔
    ∃ sign, IsSign sign ∧ (sign != '+') = west ∧ cs = sign :: rest := by
  constructor
  · intro h
    unfold offsetSign at h
    split at h
    · cases h
    · next sign tail =>
      split at h
      · next hplus =>
        cases h
        exact ⟨sign, .inl hplus, by rw [hplus]; rfl, rfl⟩
      · next hplus =>
        split at h
        · next hminus =>
          cases h
          exact ⟨sign, .inr hminus, bne_iff_ne.mpr hplus, rfl⟩
        · cases h
  · rintro ⟨sign, rfl | rfl | rfl, rfl, rfl⟩
    · rfl
    · rfl
    · rfl

theorem offsetColon_eq_ok_iff : offsetColon cs = .ok rest ↔ cs = ':' :: rest := by
  cases cs with
  | nil => simp [offsetColon]
  | cons c cs =>
    by_cases hc : c = ':'
    · simp [offsetColon, hc]
    · simp [offsetColon, hc]

/-- **An offset is read** just if it is there, in two places for hours and minutes each. -/
theorem offset_eq_ok_iff {o : Int} : offset cs = .ok (o, rest) ↔
    ∃ z : Zone, z.Marked ∧ z.Fits 99 ∧ z.seconds = o ∧ cs = z.text ++ rest := by
  constructor
  · intro h
    unfold offset at h
    split at h
    · cases h
    · next c tail =>
      split at h
      · next hmark =>
        cases h
        exact ⟨.utc c, hmark, trivial, rfl, rfl⟩
      · simp only [signedOffset, bind_eq_ok_iff, Prod.exists, offsetSign_eq_ok_iff,
          offsetPair_eq_ok_iff, offsetColon_eq_ok_iff] at h
        obtain ⟨west, cs₁, ⟨sign, hsign, rfl, htail⟩, h1, h2, cs₂, ⟨hh1, hh2, rfl⟩, cs₃, rfl, m1,
          m2, cs₄, ⟨hm1, hm2, rfl⟩, h⟩ := h
        split at h
        · cases h
        · next hshort =>
          cases h
          have hfits : 10 * h1 + h2 ≤ 99 ∧ 10 * m1 + m2 ≤ 59 := by omega
          refine ⟨.shifted sign (10 * h1 + h2) (10 * m1 + m2), hsign, hfits, ?_, ?_⟩
          · by_cases hplus : sign = '+'
            · simp [Zone.seconds, hplus]
            · simp [Zone.seconds, hplus]
          · rw [htail, Zone.text, padded_two hh1 hh2, padded_two hm1 hm2]
            rfl
  · rintro ⟨z, hmarked, hfits, rfl, rfl⟩
    cases z with
    | utc mark => exact if_pos hmarked
    | shifted sign hours minutes =>
      obtain ⟨hhours, hminutes⟩ := hfits
      have hnotUtc : ¬(sign = 'Z' ∨ sign = 'z') := by
        rcases hmarked with rfl | rfl | rfl
        all_goals decide
      have hsplit : ∀ n, n ≤ 99 → ∃ a b, a < 10 ∧ b < 10 ∧ 10 * a + b = n := fun n hn =>
        ⟨n / 10, n % 10, by omega, by omega, by omega⟩
      obtain ⟨h1, h2, hh1, hh2, rfl⟩ := hsplit hours hhours
      obtain ⟨m1, m2, hm1, hm2, rfl⟩ := hsplit minutes (hminutes.trans (by decide))
      have hshort : ¬6 ≤ m1 := by omega
      rw [Zone.text, padded_two hh1 hh2, padded_two hm1 hm2, List.cons_append, offset,
        if_neg hnotUtc]
      simp only [signedOffset, bind_eq_ok_iff, Prod.exists, offsetSign_eq_ok_iff,
        offsetPair_eq_ok_iff, offsetColon_eq_ok_iff]
      refine ⟨_, _, ⟨sign, hmarked, rfl, rfl⟩, h1, h2, _, ⟨hh1, hh2, rfl⟩, _, rfl, m1, m2, rest,
        ⟨hm1, hm2, rfl⟩, ?_⟩
      rw [if_neg hshort]
      by_cases hplus : sign = '+'
      · simp [Zone.seconds, hplus]
      · simp [Zone.seconds, hplus]

/-! ### Points in time -/

/-- What a point in time is spelled in. -/
structure Spelling where
  date : Date
  mark : Char
  face : Face
  zone : Zone

namespace Spelling

variable {w : Spelling}

/-- The text of a point in time. -/
def text (w : Spelling) : List Char :=
  Instant.renderDate w.date ++ w.mark :: (w.face.text ++ w.zone.text)

/-- The instant that is spelled: date and time less the offset, which makes it one of UTC. -/
def instant (w : Spelling) : Instant :=
  .ofCivil w.date w.face.timeOfDay w.zone.seconds

/-- The date exists in a year of four digits, the time of day exists, one of three characters stands
between them, and the offset is less than a day. -/
structure Valid (w : Spelling) : Prop where
  date : w.date.Valid
  year : 0 ≤ w.date.year ∧ w.date.year ≤ 9999
  mark : w.mark = 'T' ∨ w.mark = 't' ∨ w.mark = ' '
  face : w.face.Valid
  zone : w.zone.Valid

/-- No spelling is shorter than date and time. -/
theorem leastBytes_le (w : Spelling) : leastBytes ≤ Utf8.length w.text := by
  refine Nat.le_trans ?_ (Utf8.length_le w.text)
  have hyear := Instant.four_le_length_renderYear w.date.year
  have hmonth := Text.le_length_padded 2 w.date.month
  have hday := Text.le_length_padded 2 w.date.day
  have hhour := Text.le_length_padded 2 w.face.hour
  have hminute := Text.le_length_padded 2 w.face.minute
  have hsecond := Text.le_length_padded 2 w.face.second
  simp only [text, Instant.renderDate, Face.text, List.length_append, List.length_cons]
  unfold leastBytes
  omega

end Spelling

/-- **What is read is spelled, as the instant that it names.** -/
theorem parse_eq_ok_iff {i : Instant} :
    parse cs = .ok i ↔ ∃ w : Spelling, w.Valid ∧ w.text = cs ∧ w.instant = i := by
  have hmarks : ∀ c : Char, (c == 'T' || c == 't' || c == ' ') = true ↔
      c = 'T' ∨ c = 't' ∨ c = ' ' := by
    intro c
    simp only [Bool.or_eq_true, beq_iff_eq, or_assoc]
  constructor
  · intro h
    unfold parse at h
    split at h
    · cases h
    · simp only [bind_eq_ok_iff, Prod.exists, date_eq_ok_iff, separator_eq_ok_iff, hmarks,
        offset_eq_ok_iff] at h
      obtain ⟨d, cs₁, ⟨hdate, hyear, rfl⟩, cs₂, ⟨mark, hmark, rfl⟩, t, cs₃, htime, o, cs₄,
        ⟨z, hmarked, hfits, rfl, rfl⟩, h⟩ := h
      obtain ⟨f, hf, rfl, rfl⟩ := time_eq_ok htime
      split at h
      · cases h
      · next hend =>
        split at h
        · cases h
        · next hshort =>
          cases h
          have hnil : cs₄ = [] := by simpa using hend
          have hzone : z.Valid := ⟨hmarked, (Zone.fits_iff hfits).mpr hshort⟩
          refine ⟨⟨d, mark, f, z⟩, ⟨hdate, hyear, hmark, hf, hzone⟩, ?_, rfl⟩
          simp only [Spelling.text, hnil, List.append_nil]
  · rintro ⟨w, hw, rfl, rfl⟩
    have hlong : ¬Utf8.length w.text < leastBytes := Nat.not_lt.mpr w.leastBytes_le
    have hfits : w.zone.Fits 99 := hw.zone.fits.mono (by decide)
    have hshort : ¬greatestOffset < w.zone.seconds.natAbs := (Zone.fits_iff hfits).mp hw.zone.fits
    have hends : Ends (w.zone.text ++ []) := Zone.ends_text hw.zone.marked []
    have htime := time_text hw.face hends
    rw [parse, if_neg hlong]
    simp only [bind_eq_ok_iff, Prod.exists, date_eq_ok_iff, separator_eq_ok_iff, hmarks,
      offset_eq_ok_iff]
    refine ⟨w.date, _, ⟨hw.date, hw.year, rfl⟩, _, ⟨w.mark, hw.mark, rfl⟩, w.face.timeOfDay,
      w.zone.text ++ [], ?_, w.zone.seconds, [], ⟨w.zone, hw.zone.marked, hfits, rfl, rfl⟩, ?_⟩
    · rw [List.append_nil] at htime ⊢
      exact htime
    · rw [if_neg hshort]
      rfl

/-- A text names an instant. -/
def Names (text : String) (i : Instant) : Prop :=
  ∃ w : Spelling, w.Valid ∧ w.text = text.toList ∧ w.instant = i

theorem parseString_eq_ok_iff {text : String} {i : Instant} :
    parseString text = .ok i ↔ Names text i :=
  parse_eq_ok_iff

end Rfc3339
end ImagePolicy
