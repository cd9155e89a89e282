/-
# Instants that are printed apart

The text of an instant has no fixed width: the year has a sign and more digits where four are not
enough, and the part of a second has no, three, six or nine digits. Still no two instants are
printed alike (`Instant.render_injective`). A number ends where no digit follows, so the date can be
taken off the front of the text, and the signs of years are no digits; and what follows the date is
a time of day that is read back, with second 60 as a leap second (`Instant.time_render`).

Key theorems: `Text.padded_append_inj`, `Instant.renderYear_append_inj`,
`Instant.renderDate_append_inj`, `Instant.exists_face`, `Instant.time_render`,
`Instant.render_injective`.
-/
import ImagePolicy.Proofs.Time.TimeForms

namespace ImagePolicy

open EffectiveDate (Stops stops_cons)

namespace Text

/-- Digits end where no digit follows, so what is behind them is told from them. -/
theorem append_inj_of_digits {front front' back back' : List Char}
    (hfront : ∀ c ∈ front, (digit? c).isSome = true)
    (hfront' : ∀ c ∈ front', (digit? c).isSome = true) (hback : Stops back) (hback' : Stops back')
    (h : front ++ back = front' ++ back') : front = front' ∧ back = back' := by
  have htake : ∀ {cs rest : List Char}, (∀ c ∈ cs, (digit? c).isSome = true) → Stops rest →
      (cs ++ rest).takeWhile (fun c => (digit? c).isSome) = cs := by
    intro cs rest hcs hrest
    rw [List.takeWhile_append_of_pos hcs]
    cases rest with
    | nil => simp
    | cons c rest => simp [hrest c rfl]
  have hsame : front = front' := by
    rw [← htake hfront hback, h, htake hfront' hback']
  subst hsame
  exact ⟨rfl, List.append_cancel_left h⟩

/-- A padded number is read off a text, up to where no digit follows. -/
theorem padded_append_inj {width m n : Nat} {back back' : List Char} (hback : Stops back)
    (hback' : Stops back') (h : padded width m ++ back = padded width n ++ back') :
    m = n ∧ back = back' := by
  obtain ⟨hpadded, hrest⟩ := append_inj_of_digits (fun _ => isSome_digit?_of_mem_padded)
    (fun _ => isSome_digit?_of_mem_padded) hback hback' h
  exact ⟨padded_injective width hpadded, hrest⟩

/-- A padded number does not begin with a sign. -/
theorem padded_append_ne_cons {width n : Nat} {c : Char} {back rest : List Char} (hw : width ≠ 0)
    (hc : digit? c = none) : padded width n ++ back ≠ c :: rest := by
  intro h
  have hlength := le_length_padded width n
  cases hpadded : padded width n with
  | nil =>
    rw [hpadded] at hlength
    exact hw (Nat.le_zero.mp hlength)
  | cons x xs =>
    rw [hpadded] at h
    have hmem : x ∈ padded width n := by
      rw [hpadded]
      exact List.mem_cons_self
    have hx := isSome_digit?_of_mem_padded hmem
    rw [(List.cons.inj h).1, hc] at hx
    cases hx

end Text

namespace Instant

variable {i j : Instant} {rest rest' : List Char}

/-! ### Dates -/

/-- A year has a sign just if it is out of the range of four digits. -/
theorem renderYear_cases (year : Int) :
    (0 ≤ year ∧ year ≤ 9999) ∧ renderYear year = Text.padded 4 year.natAbs ∨
      year < 0 ∧ renderYear year = '-' :: Text.padded 4 year.natAbs ∨
      9999 < year ∧ renderYear year = '+' :: Text.padded 4 year.natAbs := by
  by_cases hrange : 0 ≤ year ∧ year ≤ 9999
  · have habs : year.toNat = year.natAbs := by omega
    exact .inl ⟨hrange, by rw [renderYear, if_pos hrange, habs]⟩
  · by_cases hneg : year < 0
    · exact .inr (.inl ⟨hneg, by rw [renderYear, if_neg hrange, if_pos hneg]⟩)
    · exact .inr (.inr ⟨by omega, by rw [renderYear, if_neg hrange, if_neg hneg]⟩)

/-- A year is read off a text, up to where no digit follows. -/
theorem renderYear_append_inj {year year' : Int} (hrest : Stops rest) (hrest' : Stops rest')
    (h : renderYear year ++ rest = renderYear year' ++ rest') : year = year' ∧ rest = rest' := by
  have hsign : ∀ {c : Char} {n m : Nat} {back back' : List Char}, Text.digit? c = none →
      Text.padded 4 n ++ back ≠ c :: Text.padded 4 m ++ back' := fun hc =>
    Text.padded_append_ne_cons four_ne_zero hc
  rcases renderYear_cases year with ⟨hy, heq⟩ | ⟨hy, heq⟩ | ⟨hy, heq⟩ <;>
    rcases renderYear_cases year' with ⟨hy', heq'⟩ | ⟨hy', heq'⟩ | ⟨hy', heq'⟩ <;>
    rw [heq, heq'] at h
  · obtain ⟨habs, hback⟩ := Text.padded_append_inj hrest hrest' h
    exact ⟨by omega, hback⟩
  · exact absurd h (hsign rfl)
  · exact absurd h (hsign rfl)
  · exact absurd h.symm (hsign rfl)
  · obtain ⟨habs, hback⟩ := Text.padded_append_inj hrest hrest' (List.cons.inj h).2
    exact ⟨by omega, hback⟩
  · exact absurd (List.cons.inj h).1 (by decide)
  · exact absurd h.symm (hsign rfl)
  · exact absurd (List.cons.inj h).1 (by decide)
  · obtain ⟨habs, hback⟩ := Text.padded_append_inj hrest hrest' (List.cons.inj h).2
    exact ⟨by omega, hback⟩

/-- A date is read off a text, up to where no digit follows. -/
theorem renderDate_append_inj {d d' : Date} (hrest : Stops rest) (hrest' : Stops rest')
    (h : renderDate d ++ rest = renderDate d' ++ rest') : d = d' ∧ rest = rest' := by
  have hhyphen : ∀ cs : List Char, Stops ('-' :: cs) := stops_cons rfl
  obtain ⟨year, month, day⟩ := d
  obtain ⟨year', month', day'⟩ := d'
  simp only [renderDate, List.append_assoc, List.cons_append] at h
  obtain ⟨rfl, hmonth⟩ := renderYear_append_inj (hhyphen _) (hhyphen _) h
  obtain ⟨rfl, hday⟩ := Text.padded_append_inj (hhyphen _) (hhyphen _) (List.cons.inj hmonth).2
  obtain ⟨rfl, hback⟩ := Text.padded_append_inj hrest hrest' (List.cons.inj hday).2
  exact ⟨rfl, hback⟩

/-! ### Times of day -/

/-- A part of a second that is written in so many places is read as it is. -/
theorem exists_fraction (width places : Nat) {n : Nat} (hw : width ≠ 0) (hn : n < 10 ^ width)
    (hplaces : width + places = 9) : ∃ ds : List Nat, (∀ d ∈ ds, d < 10) ∧
      Rfc3339.fractionText ds = '.' :: Text.padded width n ∧
      Rfc3339.nanosOf ds = n * 10 ^ places := by
  obtain ⟨ds, hds, hlength, hlt, rfl⟩ := Text.padded_eq hw hn
  have hne : ds ≠ [] := by
    rintro rfl
    exact hw hlength.symm
  have hall : ds.take 9 = ds := List.take_of_length_le (by omega)
  refine ⟨ds, hlt, by rw [Rfc3339.fractionText, if_neg hne, hds], ?_⟩
  have hshift : 9 - ds.length = places := by omega
  rw [Rfc3339.nanosOf, hall, hshift]
  rfl

theorem exists_renderFraction (nano : Nat) : ∃ ds : List Nat, (∀ d ∈ ds, d < 10) ∧
    Rfc3339.fractionText ds = renderFraction nano ∧
    Rfc3339.nanosOf ds = nano % nanosPerSecond := by
  have hlt : nano % nanosPerSecond < nanosPerSecond := Nat.mod_lt _ (by decide)
  unfold renderFraction
  generalize nano % nanosPerSecond = n at hlt ⊢
  simp only [nanosPerSecond] at hlt ⊢
  split
  · next hzero => exact ⟨[], List.forall_mem_nil _, rfl, hzero.symm⟩
  · split
    · next hmilli =>
      obtain ⟨ds, hds, htext, hvalue⟩ := exists_fraction 3 6 (by decide)
        (show n / 1000000 < 10 ^ 3 by omega) rfl
      exact ⟨ds, hds, htext, by omega⟩
    · split
      · next hmicro =>
        obtain ⟨ds, hds, htext, hvalue⟩ := exists_fraction 6 3 (by decide)
          (show n / 1000 < 10 ^ 6 by omega) rfl
        exact ⟨ds, hds, htext, by omega⟩
      · obtain ⟨ds, hds, htext, hvalue⟩ := exists_fraction 9 0 (by decide)
          (show n < 10 ^ 9 by omega) rfl
        exact ⟨ds, hds, htext, by omega⟩

/-- **A time of day is written as its face shows it**, with a leap second as second 60. -/
theorem exists_face {t : TimeOfDay} (h : t.Valid) : ∃ f : Rfc3339.Face, f.Valid ∧
    f.text = renderTime t ++ renderFraction t.nano ∧ f.timeOfDay = t := by
  obtain ⟨hour, minute, second, nano⟩ := t
  obtain ⟨hh, hm, hs, hn⟩ := h
  simp only at hh hm hs hn
  obtain ⟨ds, hds, htext, hvalue⟩ := exists_renderFraction nano
  -- the face shows 60 in a leap second and at no other time
  have hface : ∃ face, faceSecond ⟨hour, minute, second, nano⟩ = face ∧ face ≤ 60 ∧
      (if face = 60 then (⟨hour, minute, 59, nano % nanosPerSecond + nanosPerSecond⟩ : TimeOfDay)
        else ⟨hour, minute, face, nano % nanosPerSecond⟩) = ⟨hour, minute, second, nano⟩ := by
    by_cases hleap : nanosPerSecond ≤ nano
    · have hlast : second = 59 := by omega
      have hnano : nano % nanosPerSecond + nanosPerSecond = nano := by
        unfold nanosPerSecond at *
        omega
      subst hlast
      exact ⟨60, if_pos hleap, Nat.le_refl 60, by rw [if_pos rfl, hnano]⟩
    · have hnano : nano % nanosPerSecond = nano := Nat.mod_eq_of_lt (Nat.not_le.mp hleap)
      have hshown : second ≠ 60 := by omega
      exact ⟨second, if_neg hleap, by omega, by rw [if_neg hshown, hnano]⟩
  obtain ⟨face, hface, hle, ht⟩ := hface
  refine ⟨⟨hour, minute, face, ds⟩, ⟨hh, hm, hle, hds⟩, ?_, ?_⟩
  · simp only [Rfc3339.Face.text, renderTime, hface, htext, List.append_assoc, List.cons_append]
  · rw [Rfc3339.Face.timeOfDay, hvalue]
    exact ht

/-- A time of day is read back from its text. -/
theorem time_render {t : TimeOfDay} (h : t.Valid) :
    Rfc3339.time (renderTime t ++ renderFraction t.nano ++ ['Z']) = .ok (t, ['Z']) := by
  obtain ⟨f, hf, htext, rfl⟩ := exists_face h
  have hends : Rfc3339.Ends ['Z'] := Rfc3339.Zone.ends_text (z := .utc 'Z') (.inl rfl) []
  rw [← htext]
  exact Rfc3339.time_text hf hends

/-! ### Instants -/

/-- **No two instants are printed alike.** -/
theorem render_injective (hi : i.Valid) (hj : j.Valid) (h : i.render = j.render) : i = j := by
  have hT : ∀ cs : List Char, Stops ('T' :: cs) := stops_cons rfl
  simp only [render, List.append_assoc, List.cons_append] at h
  obtain ⟨hdate, htail⟩ := renderDate_append_inj (hT _) (hT _) h
  have hread := congrArg Rfc3339.time (List.cons.inj htail).2
  simp only [← List.append_assoc] at hread
  rw [time_render (valid_timeOfDay hi), time_render (valid_timeOfDay hj)] at hread
  have htime : i.timeOfDay = j.timeOfDay := by simpa using hread
  rw [← ofCivil_date_timeOfDay i, ← ofCivil_date_timeOfDay j, hdate, htime]

end Instant
end ImagePolicy
