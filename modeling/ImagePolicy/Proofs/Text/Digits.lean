/-
# Numbers that are read back

A number is written in decimal with zeros in front up to a width. Where it fits the width, these
are as many digits as the width says, and they spell the number, so a reader of that many digits
has it back (`Rfc3339.number_padded`).

Key theorems: `Text.ofDigits_digits`, `Text.padded_eq`, `Text.padded_injective`,
`Rfc3339.number_padded`.
-/
import ImagePolicy.Time.Rfc3339
import Mathlib.Tactic.IntervalCases

namespace ImagePolicy
namespace Text

theorem ofDigits_append (ds : List Nat) (d : Nat) :
    ofDigits (ds ++ [d]) = 10 * ofDigits ds + d := by
  simp [ofDigits]

/-- Zeros in front of digits do not count. -/
theorem ofDigits_zeros (count : Nat) (ds : List Nat) :
    ofDigits (List.replicate count 0 ++ ds) = ofDigits ds := by
  induction count with
  | zero => rfl
  | succ count ih => exact ih

/-- The digits of a number spell it. -/
theorem ofDigits_digits (n : Nat) : ofDigits (digits n) = n := by
  induction n using digits.induct with
  | case1 n h =>
    rw [digits, if_pos h]
    simp [ofDigits]
  | case2 n h ih =>
    rw [digits, if_neg h, ofDigits_append, ih]
    omega

theorem lt_ten_of_mem_digits {n : Nat} : ∀ d ∈ digits n, d < 10 := by
  induction n using digits.induct with
  | case1 n h =>
    rw [digits, if_pos h]
    simpa using h
  | case2 n h ih =>
    rw [digits, if_neg h]
    intro d hd
    rcases List.mem_append.mp hd with hd | hd
    · exact ih d hd
    · obtain rfl := List.mem_singleton.mp hd
      omega

/-- A number below a power of ten has no more digits than the power has zeros. -/
theorem length_digits_le {width n : Nat} (hw : width ≠ 0) (h : n < 10 ^ width) :
    (digits n).length ≤ width := by
  induction n using digits.induct generalizing width with
  | case1 n hn =>
    rw [digits, if_pos hn]
    exact Nat.one_le_iff_ne_zero.mpr hw
  | case2 n hn ih =>
    obtain ⟨w, rfl⟩ := Nat.exists_eq_succ_of_ne_zero hw
    have hw' : w ≠ 0 := by
      rintro rfl
      omega
    have hlt : n / 10 < 10 ^ w := by
      rw [Nat.div_lt_iff_lt_mul (by decide)]
      exact h
    rw [digits, if_neg hn, List.length_append, List.length_singleton]
    exact Nat.succ_le_succ (ih hw' hlt)

/-- Padding is to a width at least. -/
theorem le_length_padded (width n : Nat) : width ≤ (padded width n).length := by
  simp only [padded, List.length_append, List.length_replicate]
  omega

theorem digit?_digitChar {d : Nat} (h : d < 10) : digit? (digitChar d) = some d := by
  interval_cases d <;> rfl

/-- A padded number is a list of digits that spells it: its own, with zeros in front up to the
width. -/
theorem padded_digits (width n : Nat) : ∃ ds : List Nat, padded width n = ds.map digitChar ∧
    ds.length = max width (digits n).length ∧ (∀ d ∈ ds, d < 10) ∧ ofDigits ds = n := by
  refine ⟨List.replicate (width - (digits n).length) 0 ++ digits n, ?_, ?_, ?_, ?_⟩
  · have hzero : digitChar 0 = '0' := rfl
    simp [padded, decimal, hzero]
  · rw [List.length_append, List.length_replicate]
    omega
  · intro d hd
    rcases List.mem_append.mp hd with hd | hd
    · rw [List.eq_of_mem_replicate hd]
      decide
    · exact lt_ten_of_mem_digits d hd
  · rw [ofDigits_zeros, ofDigits_digits]

/-- A padded number is a list of digits, of the width that it is padded to, that spells it. -/
theorem padded_eq {width n : Nat} (hw : width ≠ 0) (h : n < 10 ^ width) :
    ∃ ds : List Nat, padded width n = ds.map digitChar ∧ ds.length = width ∧ (∀ d ∈ ds, d < 10) ∧
      ofDigits ds = n := by
  obtain ⟨ds, hds, hlen, hlt, hn⟩ := padded_digits width n
  exact ⟨ds, hds, hlen.trans (max_eq_left (length_digits_le hw h)), hlt, hn⟩

/-- Digits are read back from their characters. -/
theorem filterMap_digit? {ds : List Nat} (h : ∀ d ∈ ds, d < 10) :
    (ds.map digitChar).filterMap digit? = ds := by
  induction ds with
  | nil => rfl
  | cons d ds ih =>
    obtain ⟨hd, hds⟩ := List.forall_mem_cons.mp h
    rw [List.map_cons, List.filterMap_cons_some (digit?_digitChar hd), ih hds]

/-- Numbers that are padded alike are the same, whether or not they fit the width. -/
theorem padded_injective (width : Nat) : Function.Injective (padded width) := by
  intro m n h
  obtain ⟨ds, hds, -, hlt, rfl⟩ := padded_digits width m
  obtain ⟨es, hes, -, hlt', rfl⟩ := padded_digits width n
  have hsame : ds.map digitChar = es.map digitChar := hds.symm.trans (h.trans hes)
  rw [← filterMap_digit? hlt, hsame, filterMap_digit? hlt']

/-- A padded number is made of digits. -/
theorem isSome_digit?_of_mem_padded {width n : Nat} {c : Char} (h : c ∈ padded width n) :
    (digit? c).isSome := by
  obtain ⟨ds, hds, -, hlt, -⟩ := padded_digits width n
  rw [hds] at h
  obtain ⟨d, hd, rfl⟩ := List.mem_map.mp h
  rw [digit?_digitChar (hlt d hd)]
  rfl

end Text

namespace Rfc3339

/-- A number that is read goes on from the digits before it. -/
theorem number_digits {ds : List Nat} (h : ∀ d ∈ ds, d < 10) (n : Nat) (rest : List Char) :
    number n ds.length (ds.map Text.digitChar ++ rest) =
      .ok (ds.foldl (fun n d => 10 * n + d) n, rest) := by
  induction ds generalizing n with
  | nil => rfl
  | cons d ds ih =>
    obtain ⟨hd, hds⟩ := List.forall_mem_cons.mp h
    simp only [List.length_cons, List.map_cons, List.cons_append, number, Text.digit?_digitChar hd,
      List.foldl_cons]
    exact ih hds (10 * n + d)

/-- A padded number is read back. -/
theorem number_padded {width n : Nat} (hw : width ≠ 0) (h : n < 10 ^ width) (rest : List Char) :
    number 0 width (Text.padded width n ++ rest) = .ok (n, rest) := by
  obtain ⟨ds, hds, rfl, hlt, rfl⟩ := Text.padded_eq hw h
  rw [hds]
  exact number_digits hlt 0 rest

end Rfc3339
end ImagePolicy
