/-
# Exact dates

Exact dates are all laid out alike, with each number in the same place and in as many digits. So
two of them, as texts, are in the order of the first numbers in which they differ
(`EffectiveDate.Spelling.text_lt_iff`), and that is the order of their instants too, where a leap
second comes after the second that it belongs to and before the next minute
(`EffectiveDate.Spelling.instant_lt_iff`). What is read from an exact date is printed as that date
(`EffectiveDate.Spelling.renderSeconds_instant`), and every instant of a year with four digits is
printed as one, whose instant is the one cut to whole seconds (`EffectiveDate.exact_renderSeconds`).
So whether an instant is before an exact date can be told from the texts
(`EffectiveDate.Exact.lt_start_iff`).

Key definitions: `EffectiveDate.Spelling.fields`.
Key theorems: `EffectiveDate.Spelling.text_lt_iff`, `EffectiveDate.Spelling.instant_lt_iff`,
`EffectiveDate.Exact.exists_parse?`, `EffectiveDate.Exact.lt_iff`,
`EffectiveDate.exact_renderSeconds`, `EffectiveDate.Exact.lt_start_iff`.
-/
import ImagePolicy.Proofs.Time.DateForms
import ImagePolicy.Proofs.Time.DayOrder
import ImagePolicy.Proofs.Time.WholeSeconds

namespace ImagePolicy
namespace EffectiveDate

variable {cs ds : List Char}

/-! ### The order of texts -/

/-- Numbers in places of one width are in order as texts before anything behind them is. -/
theorem Numeral.Full.text_append_lt_iff {width : Nat} {n m : Numeral} (hn : n.Full width)
    (hm : m.Full width) (hn' : n.Valid) (hm' : m.Valid) (back back' : List Char) :
    n.text ++ back < m.text ++ back' ↔
      n.magnitude < m.magnitude ∨ n.magnitude = m.magnitude ∧ back < back' := by
  have hlength : n.digits.length = m.digits.length := hn.length.trans hm.length.symm
  have hsame : n.digits.map Text.digitChar = m.digits.map Text.digitChar ↔
      n.magnitude = m.magnitude := by
    constructor
    · intro h
      rw [magnitude, magnitude, ← Text.filterMap_digit? hn'.digits, h,
        Text.filterMap_digit? hm'.digits]
    · intro h
      rw [Text.ofDigits_inj hlength hn'.digits hm'.digits h]
  rw [hn.text_eq, hm.text_eq, Text.append_lt_iff (by simpa using hlength), hsame,
    Text.map_digitChar_lt_iff hlength hn'.digits hm'.digits]
  rfl

namespace Spelling

variable {w v : Spelling}

/-- The numbers that are spelled, the year first. -/
def fields (w : Spelling) : List Nat :=
  w.numbers.map Numeral.magnitude

theorem fields_lt_iff : w.fields < v.fields ↔
    w.year.magnitude < v.year.magnitude ∨ w.year.magnitude = v.year.magnitude ∧
    (w.month.magnitude < v.month.magnitude ∨ w.month.magnitude = v.month.magnitude ∧
    (w.day.magnitude < v.day.magnitude ∨ w.day.magnitude = v.day.magnitude ∧
    (w.hour.magnitude < v.hour.magnitude ∨ w.hour.magnitude = v.hour.magnitude ∧
    (w.minute.magnitude < v.minute.magnitude ∨ w.minute.magnitude = v.minute.magnitude ∧
      w.second.magnitude < v.second.magnitude)))) := by
  simp [fields, numbers, List.cons_lt_cons_iff]

/-- **Exact dates are in the order of their numbers.** -/
theorem text_lt_iff (hw : w.Written) (hv : v.Written) (hwfull : w.Full) (hvfull : v.Full) :
    w.text < v.text ↔ w.fields < v.fields := by
  rw [fields_lt_iff, text, text,
    hwfull.year.text_append_lt_iff hvfull.year hw.year.toValid hv.year.toValid,
    List.cons_lt_cons_self,
    hwfull.month.text_append_lt_iff hvfull.month hw.month.toValid hv.month.toValid,
    List.cons_lt_cons_self,
    hwfull.day.text_append_lt_iff hvfull.day hw.day.toValid hv.day.toValid,
    List.cons_lt_cons_self,
    hwfull.hour.text_append_lt_iff hvfull.hour hw.hour.toValid hv.hour.toValid,
    List.cons_lt_cons_self,
    hwfull.minute.text_append_lt_iff hvfull.minute hw.minute.toValid hv.minute.toValid,
    List.cons_lt_cons_self,
    hwfull.second.text_append_lt_iff hvfull.second hw.second.toValid hv.second.toValid]
  simp

/-! ### The order of instants -/

/-- Times of day that exist are in the order of what the clock shows. -/
theorem timeOnFace_lt_iff {h m s h' m' s' : Nat} (ht : (timeOnFace h m s).Valid)
    (ht' : (timeOnFace h' m' s').Valid) (d d' : Date) :
    Instant.ofCivil d (timeOnFace h m s) 0 < Instant.ofCivil d' (timeOnFace h' m' s') 0 ↔
      d.dayNumber < d'.dayNumber ∨ d.dayNumber = d'.dayNumber ∧
      (h < h' ∨ h = h' ∧ (m < m' ∨ m = m' ∧ s < s')) := by
  rw [valid_timeOnFace_iff] at ht ht'
  rw [Instant.lt_def]
  -- second 60 is second 59 with a whole second as its part
  by_cases hleap : s = 60 <;> by_cases hleap' : s' = 60 <;>
    simp only [timeOnFace, hleap, hleap', if_true, if_false, Instant.ofCivil, secondsPerDay,
      nanosPerSecond] <;>
    omega

/-- **The instants of exact dates are in the order of their numbers.** -/
theorem instant_lt_iff (hw : w.Real) (hv : v.Real) (hwfull : w.Full) (hvfull : v.Full) :
    w.instant < v.instant ↔ w.fields < v.fields := by
  have hbefore := Date.dayNumber_lt_iff hw.date hv.date
  have hsame : w.date.dayNumber = v.date.dayNumber ↔ w.date = v.date :=
    ⟨Date.eq_of_dayNumber_eq hw.date hv.date, congrArg Date.dayNumber⟩
  rw [instant, instant, timeOnFace_lt_iff (valid_timeOnFace_iff.mpr hw.time)
    (valid_timeOnFace_iff.mpr hv.time), hbefore, hsame, fields_lt_iff]
  simp only [date, Date.Before, Date.mk.injEq, hwfull.year.value_eq, hvfull.year.value_eq]
  omega

/-! ### Printing -/

theorem hour_timeOnFace (hour minute second : Nat) :
    (timeOnFace hour minute second).hour = hour := by
  unfold timeOnFace
  split <;> rfl

theorem minute_timeOnFace (hour minute second : Nat) :
    (timeOnFace hour minute second).minute = minute := by
  unfold timeOnFace
  split <;> rfl

theorem faceSecond_timeOnFace (hour minute second : Nat) :
    Instant.faceSecond (timeOnFace hour minute second) = second := by
  unfold timeOnFace Instant.faceSecond
  by_cases hleap : second = 60
  · simp [hleap]
  · simp [hleap, nanosPerSecond]

end Spelling

theorem Numeral.Full.padded_magnitude {width : Nat} {n : Numeral} (h : n.Full width)
    (hn : n.Valid) : Text.padded width n.magnitude = n.text := by
  rw [h.text_eq, ← h.length]
  exact Text.padded_ofDigits hn.filled hn.digits

/-- A number that fits a place is written in it. -/
theorem Numeral.exists_full {width n : Nat} (hw : width ≠ 0) (hn : n < 10 ^ width) :
    ∃ m : Numeral, m.Valid ∧ m.Full width ∧ m.magnitude = n := by
  obtain ⟨ds, -, hlength, hlt, rfl⟩ := Text.padded_eq hw hn
  have hne : ds ≠ [] := by
    rintro rfl
    exact hw hlength.symm
  exact ⟨⟨[], none, ds⟩, ⟨nofun, hne, hlt⟩, ⟨rfl, rfl, hlength⟩, rfl⟩

namespace Spelling

variable {w : Spelling}

/-- **The instant of an exact date is printed as that date.** -/
theorem renderSeconds_instant (hw : w.Written) (hfull : w.Full) (hreal : w.Real) :
    w.instant.renderSeconds = w.text := by
  have htime := valid_timeOnFace_iff.mpr hreal.time
  have hyear : Instant.renderYear w.date.year = w.year.text := by
    have hlt := hfull.year.magnitude_lt hw.year.toValid
    have hvalue : w.date.year = w.year.magnitude := hfull.year.value_eq
    rw [Instant.renderYear, hvalue, if_pos (by omega), Int.toNat_natCast,
      hfull.year.padded_magnitude hw.year.toValid]
  have hmonth := hfull.month.padded_magnitude hw.month.toValid
  have hday := hfull.day.padded_magnitude hw.day.toValid
  have hhour := hfull.hour.padded_magnitude hw.hour.toValid
  have hminute := hfull.minute.padded_magnitude hw.minute.toValid
  have hsecond := hfull.second.padded_magnitude hw.second.toValid
  rw [instant, Instant.renderSeconds, Instant.date_ofCivil hreal.date htime,
    Instant.timeOfDay_ofCivil htime, Instant.renderDate, Instant.renderTime, faceSecond_timeOnFace,
    hour_timeOnFace, minute_timeOnFace, hyear, hhour, hminute, hsecond, text, ← hmonth, ← hday]
  simp [date]

end Spelling

/-- An exact date is read, as an instant that is printed as that date. -/
theorem Exact.exists_parse? (h : Exact cs) : ∃ i, parse? cs = some i ∧ i.renderSeconds = cs := by
  obtain ⟨w, hw, hfull, hreal, rfl⟩ := h
  exact ⟨w.instant, parse?_eq_some_iff.mpr ⟨w, hfull.valid hw hreal, rfl, rfl⟩,
    Spelling.renderSeconds_instant hw hfull hreal⟩

/-- **What is read from exact dates is in the order of the texts.** -/
theorem Exact.lt_iff {i j : Instant} (hcs : Exact cs) (hds : Exact ds) (hi : parse? cs = some i)
    (hj : parse? ds = some j) : i < j ↔ cs < ds := by
  obtain ⟨w, hw, hwfull, hwreal, rfl⟩ := hcs
  obtain ⟨v, hv, hvfull, hvreal, rfl⟩ := hds
  rw [parse?_eq_some_iff.mpr ⟨w, hwfull.valid hw hwreal, rfl, rfl⟩] at hi
  rw [parse?_eq_some_iff.mpr ⟨v, hvfull.valid hv hvreal, rfl, rfl⟩] at hj
  cases hi
  cases hj
  rw [Spelling.text_lt_iff hw hv hwfull hvfull, Spelling.instant_lt_iff hwreal hvreal hwfull hvfull]

/-! ### Instants that are printed -/

/-- The clock's face shows a time of day in whole seconds. -/
theorem timeOnFace_faceSecond {t : TimeOfDay} (h : t.Valid)
    (hnano : t.nano = 0 ∨ t.nano = nanosPerSecond) :
    timeOnFace t.hour t.minute (Instant.faceSecond t) = t := by
  obtain ⟨hour, minute, second, nano⟩ := t
  obtain ⟨-, -, hs, hn⟩ := h
  simp only at hs hn hnano
  unfold timeOnFace Instant.faceSecond
  rcases hnano with rfl | rfl
  · have hface : second ≠ 60 := by omega
    simp [nanosPerSecond, hface]
  · have hlast : second = 59 := (hn.resolve_left (Nat.lt_irrefl _)).1
    simp [hlast]

theorem faceSecond_le {t : TimeOfDay} (h : t.Valid) : Instant.faceSecond t ≤ 60 := by
  have hs := h.2.2.1
  unfold Instant.faceSecond
  split <;> omega

/-- A date that exists in a year of four digits and a time of day in whole seconds are spelled
exactly. -/
theorem exists_exact {d : Date} {t : TimeOfDay} (hd : d.Valid) (ht : t.Valid) (h0 : 0 ≤ d.year)
    (h1 : d.year ≤ 9999) (hnano : t.nano = 0 ∨ t.nano = nanosPerSecond) :
    ∃ w : Spelling, w.Written ∧ w.Full ∧ w.Real ∧ w.instant = .ofCivil d t 0 := by
  have hdays : d.day ≤ 31 := hd.2.2.2.trans (daysIn_le d.year d.month)
  have hmonths := hd.2.1
  have hface := faceSecond_le ht
  have hhours := ht.1
  have hminutes := ht.2.1
  obtain ⟨count, hcount⟩ := Int.eq_ofNat_of_zero_le h0
  have hcount4 : count < 10 ^ 4 := by omega
  obtain ⟨year, hyear, hyear4, hyearn⟩ := Numeral.exists_full four_ne_zero hcount4
  have hplace : ∀ {n : Nat}, n < 100 →
      ∃ m : Numeral, m.Valid ∧ m.Full 2 ∧ m.magnitude = n := Numeral.exists_full two_ne_zero
  obtain ⟨month, hmonth, hmonth2, hmonthn⟩ := hplace (n := d.month) (by omega)
  obtain ⟨day, hday, hday2, hdayn⟩ := hplace (n := d.day) (by omega)
  obtain ⟨hour, hhour, hhour2, hhourn⟩ := hplace (n := t.hour) (by omega)
  obtain ⟨minute, hminute, hminute2, hminuten⟩ := hplace (n := t.minute) (by omega)
  obtain ⟨second, hsecond, hsecond2, hsecondn⟩ := hplace (n := Instant.faceSecond t) (by omega)
  have hdate : (⟨year.value, month.magnitude, day.magnitude⟩ : Date) = d := by
    rw [hyear4.value_eq, hyearn, hmonthn, hdayn, ← hcount]
  refine ⟨⟨year, month, day, hour, minute, second⟩,
    ⟨hyear4.isYear hyear, hmonth2.isField hmonth, hday2.isField hday, hhour2.isField hhour,
      hminute2.isField hminute, hsecond2.isField hsecond⟩,
    ⟨hyear4, hmonth2, hday2, hhour2, hminute2, hsecond2⟩, ⟨?_, ?_⟩, ?_⟩
  · show Date.Valid ⟨year.value, month.magnitude, day.magnitude⟩
    rw [hdate]
    exact hd
  · exact ⟨hhourn ▸ hhours, hminuten ▸ hminutes, hsecondn ▸ hface⟩
  · rw [Spelling.instant, Spelling.date, hdate, hhourn, hminuten, hsecondn,
      timeOnFace_faceSecond ht hnano]

/-- **Every instant of a year with four digits is printed as an exact date**, whose instant is the
one cut to whole seconds. -/
theorem exact_renderSeconds {i : Instant} (h : i.Valid) (h0 : 0 ≤ i.date.year)
    (h1 : i.date.year ≤ 9999) :
    Exact i.renderSeconds ∧ parse? i.renderSeconds = some i.wholeSeconds := by
  obtain ⟨w, hw, hfull, hreal, hinstant⟩ := exists_exact (d := i.wholeSeconds.date)
    (Date.valid_ofDayNumber _) (Instant.valid_timeOfDay (Instant.valid_wholeSeconds h)) h0 h1
    ((Instant.wholeSeconds_nano i).imp And.right And.right)
  rw [Instant.ofCivil_date_timeOfDay] at hinstant
  have htext : w.text = i.renderSeconds := by
    rw [← Spelling.renderSeconds_instant hw hfull hreal, hinstant,
      Instant.renderSeconds_wholeSeconds]
  exact ⟨⟨w, hw, hfull, hreal, htext⟩,
    parse?_eq_some_iff.mpr ⟨w, hfull.valid hw hreal, htext, hinstant⟩⟩

/-- **An instant is before an exact date just if it is printed as an earlier text**, whatever part
of a second it has. -/
theorem Exact.lt_start_iff {i start : Instant} (hcs : Exact cs) (hstart : parse? cs = some start)
    (h : i.Valid) (h0 : 0 ≤ i.date.year) (h1 : i.date.year ≤ 9999) :
    i < start ↔ i.renderSeconds < cs := by
  obtain ⟨hprinted, hread⟩ := exact_renderSeconds h h0 h1
  rw [← hprinted.lt_iff hcs hread hstart, ← Instant.not_le, ← Instant.not_le,
    Instant.le_wholeSeconds_iff (nano_of_parse? hstart)]

end EffectiveDate
end ImagePolicy
