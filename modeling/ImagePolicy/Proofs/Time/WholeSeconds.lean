/-
# Instants in whole seconds

An instant is printed in whole seconds, that is without its part of a second, where a leap second
counts as one. What is printed in a year with four digits is read back as the instant cut to whole
seconds (`Rfc3339.parse_renderSeconds`); a year with a sign is not read at all. No comparison with
an effective date notices the cut, because effective dates are whole seconds themselves
(`EffectiveDate.nano_of_parse?`, `Instant.le_wholeSeconds_iff`).

Key definitions: `Instant.Valid`, `Instant.wholeSeconds`.
Key theorems: `Instant.ofCivil_date_timeOfDay`, `Rfc3339.parse_renderSeconds`,
`Rfc3339.parse_renderSeconds_of_signed`, `Rfc3339.valid_of_parse`, `EffectiveDate.nano_of_parse?`,
`Instant.le_wholeSeconds_iff`.
-/
import ImagePolicy.Proofs.Text.Digits
import ImagePolicy.Proofs.Time.Calendar
import ImagePolicy.Time.EffectiveDate

namespace ImagePolicy

theorem Utf8.length_encodeChar_pos (c : Char) : 0 < (Utf8.encodeChar c).length := by
  unfold Utf8.encodeChar
  simp only
  split
  · simp
  · split
    · simp
    · split <;> simp

/-- A text takes at least a byte for each character. -/
theorem Utf8.length_le (cs : List Char) : cs.length ≤ Utf8.length cs := by
  induction cs with
  | nil => exact Nat.zero_le _
  | cons c cs ih =>
    have hc := Utf8.length_encodeChar_pos c
    simp only [Utf8.length, Utf8.encode, List.flatMap_cons, List.length_append,
      List.length_cons] at ih ⊢
    omega

namespace Instant

/-- The instant exists: a part of a second beyond its end is a leap second's, which ends a
minute. -/
def Valid (i : Instant) : Prop :=
  i.nano < nanosPerSecond ∨ i.second % 60 = 59 ∧ i.nano < 2 * nanosPerSecond

/-- The instant cut to whole seconds, a leap second being one. -/
def wholeSeconds (i : Instant) : Instant :=
  ⟨i.second, if nanosPerSecond ≤ i.nano then nanosPerSecond else 0⟩

theorem wholeSeconds_nano (i : Instant) :
    i.nano < nanosPerSecond ∧ i.wholeSeconds.nano = 0 ∨
      nanosPerSecond ≤ i.nano ∧ i.wholeSeconds.nano = nanosPerSecond := by
  rcases Nat.lt_or_ge i.nano nanosPerSecond with h | h
  · exact Or.inl ⟨h, if_neg (Nat.not_le.mpr h)⟩
  · exact Or.inr ⟨h, if_pos h⟩

/-- The time of day of an instant exists. -/
theorem valid_timeOfDay {i : Instant} (h : i.Valid) : i.timeOfDay.Valid := by
  have hday : 0 ≤ i.second % 86400 ∧ i.second % 86400 < 86400 :=
    ⟨Int.emod_nonneg _ (by decide), Int.emod_lt_of_pos _ (by decide)⟩
  have hminute : i.second % 86400 % 60 = i.second % 60 := Int.emod_emod_of_dvd _ (by decide)
  refine ⟨?_, ?_, ?_, h.imp_right fun h => ⟨?_, h.2⟩⟩
  · show (i.second % 86400).toNat / 3600 ≤ 23
    omega
  · show (i.second % 86400).toNat / 60 % 60 ≤ 59
    omega
  · show (i.second % 86400).toNat % 60 ≤ 59
    omega
  · show (i.second % 86400).toNat % 60 = 59
    omega

/-- An instant still exists when it is cut to whole seconds. -/
theorem valid_wholeSeconds {i : Instant} (h : i.Valid) : i.wholeSeconds.Valid := by
  rcases wholeSeconds_nano i with ⟨-, hw⟩ | ⟨hle, hw⟩
  · left
    rw [hw]
    decide
  · have hleap := h.resolve_left (Nat.not_lt.mpr hle)
    right
    rw [hw]
    exact ⟨hleap.1, by decide⟩

/-- Date and time of day make up the instant. -/
theorem ofCivil_date_timeOfDay (i : Instant) : ofCivil i.date i.timeOfDay 0 = i := by
  have hday : 0 ≤ i.second % secondsPerDay := Int.emod_nonneg _ (by decide)
  have hsum := Int.mul_ediv_add_emod i.second secondsPerDay
  unfold ofCivil date timeOfDay
  rw [Date.dayNumber_ofDayNumber]
  cases i with
  | mk second nano =>
    simp only [mk.injEq, and_true]
    simp only [secondsPerDay] at *
    omega

theorem valid_ofCivil {d : Date} {t : TimeOfDay} {offset : Int} (h : t.Valid)
    (hoffset : offset % 60 = 0) : (ofCivil d t offset).Valid := by
  obtain ⟨-, -, -, hn⟩ := h
  refine hn.imp_right fun ⟨hs, hn⟩ => ⟨?_, hn⟩
  simp only [ofCivil, secondsPerDay, hs]
  omega

theorem four_le_length_renderYear (year : Int) : 4 ≤ (renderYear year).length := by
  unfold renderYear
  split
  · exact Text.le_length_padded 4 _
  · exact Nat.le_succ_of_le (Text.le_length_padded 4 _)

theorem renderSeconds_wholeSeconds (i : Instant) :
    i.wholeSeconds.renderSeconds = i.renderSeconds := by
  have hface : faceSecond i.wholeSeconds.timeOfDay = faceSecond i.timeOfDay := by
    have hleap : nanosPerSecond ≤ i.wholeSeconds.nano ↔ nanosPerSecond ≤ i.nano := by
      rcases wholeSeconds_nano i with ⟨h, hw⟩ | ⟨h, hw⟩ <;> rw [hw]
      · exact iff_of_false (by decide) (Nat.not_le.mpr h)
      · exact iff_of_true (Nat.le_refl _) h
    unfold faceSecond
    exact if_congr hleap rfl rfl
  have htime : renderTime i.wholeSeconds.timeOfDay = renderTime i.timeOfDay := by
    unfold renderTime
    rw [hface]
    rfl
  unfold renderSeconds
  rw [htime]
  rfl

end Instant

/-! ### Printing and reading -/

namespace Rfc3339

/-- A date of a year with four digits is read back. -/
theorem date_renderDate {d : Date} (h : d.Valid) (h0 : 0 ≤ d.year) (h1 : d.year ≤ 9999)
    (rest : List Char) : date (Instant.renderDate d ++ rest) = .ok (d, rest) := by
  obtain ⟨year, hyear⟩ := Int.eq_ofNat_of_zero_le h0
  have hy : year < 10 ^ 4 := by omega
  have hm : d.month < 10 ^ 2 := by
    have := h.2.1
    omega
  have hd : d.day < 10 ^ 2 := by
    have hdays := daysIn_le d.year d.month
    have := h.2.2.2
    omega
  have hrender : Instant.renderYear d.year = Text.padded 4 year := by
    rw [Instant.renderYear, if_pos ⟨h0, h1⟩, hyear]
    rfl
  have hvalid : (⟨(year : Int), d.month, d.day⟩ : Date) = d := by
    rw [← hyear]
  unfold date Instant.renderDate
  simp only [hrender, List.append_assoc, List.cons_append, number_padded (by decide) hy,
    number_padded (by decide) hm, number_padded (by decide) hd, separator, bind, Except.bind,
    beq_self_eq_true, if_true, hvalid, if_pos h]

/-- A time of day in whole seconds is read back, a leap second as such. -/
theorem time_renderTime {t : TimeOfDay} (h : t.Valid) (hnano : t.nano = 0 ∨ t.nano = nanosPerSecond)
    (rest : List Char) :
    time (Instant.renderTime t ++ 'Z' :: rest) = .ok (t, 'Z' :: rest) := by
  obtain ⟨hour, minute, second, nano⟩ := t
  obtain ⟨hh, hm, hs, hn⟩ := h
  simp only at hh hm hs hn hnano
  have hfraction : fraction ('Z' :: rest) = .ok (0, 'Z' :: rest) := rfl
  -- the face shows 60 in a leap second and at no other time
  have hface : ∃ face, Instant.faceSecond ⟨hour, minute, second, nano⟩ = face ∧ face < 10 ^ 2 ∧
      (if face = 60 then (⟨hour, minute, 59, 0 + nanosPerSecond⟩ : TimeOfDay)
        else ⟨hour, minute, face, 0⟩) = ⟨hour, minute, second, nano⟩ := by
    unfold Instant.faceSecond
    rcases hnano with rfl | rfl
    · refine ⟨second, if_neg (Nat.not_le.mpr (by decide : 0 < nanosPerSecond)), by omega, ?_⟩
      rw [if_neg (by omega)]
    · have hlast : second = 59 := by
        rcases hn with hn | hn
        · exact absurd hn (Nat.lt_irrefl _)
        · exact hn.1
      refine ⟨second + 1, if_pos (Nat.le_refl _), by omega, ?_⟩
      rw [hlast, if_pos rfl, Nat.zero_add]
  obtain ⟨face, hface, hlt, ht⟩ := hface
  have hvalid : TimeOfDay.Valid ⟨hour, minute, second, nano⟩ := ⟨hh, hm, hs, hn⟩
  unfold time Instant.renderTime
  have hhour : hour < 10 ^ 2 := by omega
  have hminute : minute < 10 ^ 2 := by omega
  simp only [hface, List.append_assoc, List.cons_append, number_padded two_ne_zero hhour,
    number_padded two_ne_zero hminute, number_padded two_ne_zero hlt, separator, bind, Except.bind,
    beq_self_eq_true, if_true, hfraction, ht, if_pos hvalid]

theorem leastBytes_le_renderSeconds (i : Instant) : leastBytes ≤ i.renderSeconds.length := by
  have hyear := Instant.four_le_length_renderYear i.date.year
  have hpadded := Text.le_length_padded 2
  simp only [leastBytes, Instant.renderSeconds, Instant.renderDate, Instant.renderTime,
    List.length_append, List.length_cons, List.length_nil]
  have hmonth := hpadded i.date.month
  have hday := hpadded i.date.day
  have hhour := hpadded i.timeOfDay.hour
  have hminute := hpadded i.timeOfDay.minute
  have hsecond := hpadded (Instant.faceSecond i.timeOfDay)
  omega

theorem leastBytes_le_length (i : Instant) : leastBytes ≤ Utf8.length i.renderSeconds :=
  Nat.le_trans (leastBytes_le_renderSeconds i) (Utf8.length_le _)

/-- **What is printed in whole seconds is read back**, in a year with four digits. -/
theorem parse_renderSeconds {i : Instant} (h : i.Valid) (h0 : 0 ≤ i.date.year)
    (h1 : i.date.year ≤ 9999) : parse i.renderSeconds = .ok i.wholeSeconds := by
  have hdate : i.wholeSeconds.date.Valid := Date.valid_ofDayNumber _
  have hnano : i.wholeSeconds.timeOfDay.nano = 0 ∨
      i.wholeSeconds.timeOfDay.nano = nanosPerSecond :=
    (Instant.wholeSeconds_nano i).imp And.right And.right
  have htime := time_renderTime (Instant.valid_timeOfDay (Instant.valid_wholeSeconds h)) hnano []
  have hcivil := Instant.ofCivil_date_timeOfDay i.wholeSeconds
  have hlength := Nat.not_lt.mpr (leastBytes_le_length i)
  rw [← Instant.renderSeconds_wholeSeconds] at hlength ⊢
  unfold parse
  rw [if_neg hlength]
  unfold Instant.renderSeconds
  simp only [List.append_assoc, List.cons_append, date_renderDate hdate h0 h1, bind, Except.bind,
    separator, beq_self_eq_true, Bool.true_or, if_true, htime, offset, true_or, List.isEmpty_nil,
    Bool.not_true, Bool.false_eq_true, if_false, Int.natAbs_zero, Nat.not_lt_zero, hcivil]

/-- A year with a sign is not read back. -/
theorem parse_renderSeconds_of_signed {i : Instant} (h : i.date.year < 0 ∨ 9999 < i.date.year) :
    ∃ fault, parse i.renderSeconds = .error fault := by
  have hyear : Instant.renderYear i.date.year =
      (if i.date.year < 0 then '-' else '+') :: Text.padded 4 i.date.year.natAbs := by
    unfold Instant.renderYear
    rw [if_neg (by omega)]
  have hsign : Text.digit? (if i.date.year < 0 then '-' else '+') = none := by
    split <;> rfl
  refine ⟨.invalid, ?_⟩
  unfold parse
  rw [if_neg (Nat.not_lt.mpr (leastBytes_le_length i))]
  simp only [Instant.renderSeconds, Instant.renderDate, hyear, List.cons_append, date, number,
    hsign, bind, Except.bind]

/-- So what is read back was printed in a year with four digits. -/
theorem year_of_parse_renderSeconds {i j : Instant} (h : parse i.renderSeconds = .ok j) :
    0 ≤ i.date.year ∧ i.date.year ≤ 9999 := by
  by_contra hyear
  obtain ⟨fault, hfault⟩ := parse_renderSeconds_of_signed (i := i) (by omega)
  rw [hfault] at h
  cases h

/-! ### The instants that are read -/

theorem eq_ok_of_bind {ε α β : Type} {x : Except ε α} {f : α → Except ε β} {b : β}
    (h : x >>= f = .ok b) : ∃ a, x = .ok a ∧ f a = .ok b := by
  cases x with
  | error err => cases h
  | ok a => exact ⟨a, rfl, h⟩

theorem valid_of_time {cs rest : List Char} {t : TimeOfDay} (h : time cs = .ok (t, rest)) :
    t.Valid := by
  unfold time at h
  obtain ⟨⟨hour, cs⟩, -, h⟩ := eq_ok_of_bind h
  obtain ⟨cs, -, h⟩ := eq_ok_of_bind h
  obtain ⟨⟨minute, cs⟩, -, h⟩ := eq_ok_of_bind h
  obtain ⟨cs, -, h⟩ := eq_ok_of_bind h
  obtain ⟨⟨second, cs⟩, -, h⟩ := eq_ok_of_bind h
  obtain ⟨⟨nano, cs⟩, -, h⟩ := eq_ok_of_bind h
  simp only at h
  split at h <;> split at h
  · next hv => cases h; exact hv
  · cases h
  · next hv => cases h; exact hv
  · cases h

/-- Offsets are whole minutes. -/
theorem offset_emod {cs rest : List Char} {o : Int} (h : offset cs = .ok (o, rest)) :
    o % 60 = 0 := by
  unfold offset at h
  split at h
  · cases h
  · split at h
    · cases h
      rfl
    · unfold signedOffset at h
      obtain ⟨⟨west, cs⟩, -, h⟩ := eq_ok_of_bind h
      obtain ⟨⟨⟨h1, h2⟩, cs⟩, -, h⟩ := eq_ok_of_bind h
      obtain ⟨cs, -, h⟩ := eq_ok_of_bind h
      obtain ⟨⟨⟨m1, m2⟩, cs⟩, -, h⟩ := eq_ok_of_bind h
      simp only at h
      split at h
      · cases h
      · simp only [Except.ok.injEq, Prod.mk.injEq] at h
        obtain ⟨rfl, -⟩ := h
        split <;> omega

/-- **The instants that are read exist**, whatever their offset is. -/
theorem valid_of_parse {cs : List Char} {i : Instant} (h : parse cs = .ok i) : i.Valid := by
  unfold parse at h
  split at h
  · cases h
  · obtain ⟨⟨d, cs⟩, -, h⟩ := eq_ok_of_bind h
    obtain ⟨cs, -, h⟩ := eq_ok_of_bind h
    obtain ⟨⟨t, cs⟩, ht, h⟩ := eq_ok_of_bind h
    obtain ⟨⟨o, cs⟩, ho, h⟩ := eq_ok_of_bind h
    have hv := valid_of_time ht
    have ho := offset_emod ho
    simp only at h
    split at h
    · cases h
    · split at h
      · cases h
      · cases h
        exact Instant.valid_ofCivil hv ho

end Rfc3339

/-! ### Effective dates -/

namespace EffectiveDate

theorem nano_of_instant? {d : Date} {hour minute second : Nat} {i : Instant}
    (h : instant? d hour minute second = some i) : i.nano = 0 ∨ i.nano = nanosPerSecond := by
  unfold instant? at h
  by_cases hleap : second = 60
  · simp only [if_pos hleap, Option.ite_none_right_eq_some, Option.some.injEq] at h
    obtain ⟨-, rfl⟩ := h
    exact Or.inr rfl
  · simp only [if_neg hleap, Option.ite_none_right_eq_some, Option.some.injEq] at h
    obtain ⟨-, rfl⟩ := h
    exact Or.inl rfl

/-- An effective date is a whole second. -/
theorem nano_of_parse? {cs : List Char} {i : Instant} (h : parse? cs = some i) :
    i.nano = 0 ∨ i.nano = nanosPerSecond := by
  unfold parse? at h
  simp only [bind, Option.bind_eq_some_iff, Prod.exists] at h
  obtain ⟨year, cs, -, cs, -, month, cs, -, cs, -, day, cs, -, cs, -, hour, cs, -, cs, -, minute,
    cs, -, cs, -, second, cs, -, cs, -, h⟩ := h
  split at h
  · exact nano_of_instant? h
  · cases h

end EffectiveDate

/-- What is a whole second itself is not after an instant just if it is not after that cut to whole
seconds. -/
theorem Instant.le_wholeSeconds_iff {a i : Instant} (h : a.nano = 0 ∨ a.nano = nanosPerSecond) :
    a ≤ i.wholeSeconds ↔ a ≤ i := by
  have hsecond : i.wholeSeconds.second = i.second := rfl
  rw [Instant.le_def, Instant.le_def, hsecond]
  rcases h with h | h <;> rcases Instant.wholeSeconds_nano i with ⟨hn, hw⟩ | ⟨hn, hw⟩ <;>
    rw [h, hw] <;> omega

end ImagePolicy
