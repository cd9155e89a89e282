/-
# Cutting a text in two, and trimming it

A text is cut at the first separator where the part in front has none, and at the last one where
the part behind has none; so a text that is put together with a separator is cut there again, if
the one part or the other is free of it (`splitFirst_eq_some_iff`, `splitLast_eq_some_iff`). And a
text stays as it is when it is trimmed, if neither of its ends is blank (`trim_eq_self`).

Key definitions: `Text.Trimmed`.
Key theorems: `Text.splitFirst_eq_some_iff`, `Text.splitLast_eq_some_iff`, `Text.trim_eq_self`,
`Text.not_isBlank_of_head?_trim`, `Text.trimmed_trim`.
-/
import ImagePolicy.Text.Split
import ImagePolicy.Text.Blank
import Mathlib.Data.List.TakeWhile

namespace ImagePolicy
namespace Text

variable {sep c : Char} {cs before after : List Char}

/-! ### The first separator -/

theorem splitFirst_eq_none_iff : splitFirst sep cs = none ↔ sep ∉ cs := by
  induction cs with
  | nil => simp [splitFirst]
  | cons c cs ih =>
    rw [splitFirst]
    by_cases hc : c = sep
    · simp [hc]
    · rw [if_neg hc, Option.map_eq_none_iff, ih]
      simp [Ne.symm hc]

theorem splitFirst_append (h : sep ∉ before) :
    splitFirst sep (before ++ sep :: after) = some (before, after) := by
  induction before with
  | nil => simp [splitFirst]
  | cons c before ih =>
    have hc : c ≠ sep := fun he => h (by simp [he])
    have hrest : sep ∉ before := fun hm => h (List.mem_cons_of_mem _ hm)
    rw [List.cons_append, splitFirst, if_neg hc, ih hrest]
    rfl

theorem not_mem_of_splitFirst (h : splitFirst sep cs = some (before, after)) : sep ∉ before := by
  induction cs generalizing before with
  | nil => simp [splitFirst] at h
  | cons c cs ih =>
    rw [splitFirst] at h
    by_cases hc : c = sep
    · rw [if_pos hc] at h
      cases h
      exact List.not_mem_nil
    · rw [if_neg hc] at h
      obtain ⟨⟨front, back⟩, hcut, heq⟩ := Option.map_eq_some_iff.mp h
      cases heq
      have hfront : sep ∉ front := ih hcut
      simp [Ne.symm hc, hfront]

/-- A text is cut at its first separator. -/
theorem splitFirst_eq_some_iff :
    splitFirst sep cs = some (before, after) ↔ cs = before ++ sep :: after ∧ sep ∉ before := by
  constructor
  · intro h
    exact ⟨splitFirst_eq_some h, not_mem_of_splitFirst h⟩
  · rintro ⟨rfl, h⟩
    exact splitFirst_append h

/-! ### The last separator -/

theorem splitLast_eq_none_iff : splitLast sep cs = none ↔ sep ∉ cs := by
  induction cs with
  | nil => simp [splitLast]
  | cons c cs ih =>
    rw [splitLast]
    cases hcut : splitLast sep cs with
    | some cut =>
      have hmem : sep ∈ cs := Decidable.not_not.mp fun hnot => by
        rw [ih.mpr hnot] at hcut
        cases hcut
      simp [hmem]
    | none =>
      have hrest : sep ∉ cs := ih.mp hcut
      by_cases hc : c = sep
      · simp [hc]
      · simp [hc, hrest, Ne.symm hc]

theorem splitLast_append (h : sep ∉ after) :
    splitLast sep (before ++ sep :: after) = some (before, after) := by
  induction before with
  | nil =>
    have hcut : splitLast sep after = none := splitLast_eq_none_iff.mpr h
    simp [splitLast, hcut]
  | cons c before ih => simp [splitLast, ih]

theorem not_mem_of_splitLast (h : splitLast sep cs = some (before, after)) : sep ∉ after := by
  induction cs generalizing before with
  | nil => simp [splitLast] at h
  | cons c cs ih =>
    rw [splitLast] at h
    cases hcut : splitLast sep cs with
    | some cut =>
      obtain ⟨front, back⟩ := cut
      rw [hcut] at h
      cases h
      exact ih hcut
    | none =>
      rw [hcut] at h
      by_cases hc : c = sep
      · simp only [hc, ↓reduceIte, Option.some.injEq, Prod.mk.injEq] at h
        exact h.2 ▸ splitLast_eq_none_iff.mp hcut
      · simp [hc] at h

/-- A text is cut at its last separator. -/
theorem splitLast_eq_some_iff :
    splitLast sep cs = some (before, after) ↔ cs = before ++ sep :: after ∧ sep ∉ after := by
  constructor
  · intro h
    exact ⟨splitLast_eq_some h, not_mem_of_splitLast h⟩
  · rintro ⟨rfl, h⟩
    exact splitLast_append h

/-! ### Blanks at the ends -/

theorem dropWhile_isBlank_eq_self (h : ∀ c, cs.head? = some c → isBlank c = false) :
    cs.dropWhile isBlank = cs := by
  cases cs with
  | nil => rfl
  | cons c cs =>
    have hc : isBlank c = false := h c rfl
    rw [List.dropWhile_cons, hc]
    rfl

/-- A text without a blank at either end is trimmed already. -/
theorem trim_eq_self (hfirst : ∀ c, cs.head? = some c → isBlank c = false)
    (hlast : ∀ c, cs.getLast? = some c → isBlank c = false) : trim cs = cs := by
  have hstart : trimStart cs = cs := dropWhile_isBlank_eq_self hfirst
  have hend : cs.reverse.dropWhile isBlank = cs.reverse :=
    dropWhile_isBlank_eq_self fun c hc => hlast c (by rwa [List.head?_reverse] at hc)
  rw [trim, hstart, trimEnd, hend, List.reverse_reverse]

/-- What is left of a text when it is trimmed does not start with a blank. -/
theorem not_isBlank_of_head?_trim (h : (trim cs).head? = some c) : isBlank c = false := by
  have hfront : trim cs <+: trimStart cs := by
    have hback : (trimStart cs).reverse.dropWhile isBlank <:+ (trimStart cs).reverse :=
      List.dropWhile_suffix _
    rw [← List.reverse_prefix, List.reverse_reverse] at hback
    exact hback
  have hhead : (trimStart cs).head? = some c := by
    obtain ⟨back, hback⟩ := hfront
    rw [← hback, List.head?_append, h]
    rfl
  have hnot := List.head?_dropWhile_not isBlank cs
  rw [trimStart] at hhead
  rw [hhead] at hnot
  simpa using hnot

/-- What a text is without the blanks around it. -/
structure Trimmed (cs inner : List Char) : Prop where
  around : ∃ front back, cs = front ++ inner ++ back ∧ (∀ c ∈ front, isBlank c = true) ∧
    ∀ c ∈ back, isBlank c = true
  starts : ∀ c, inner.head? = some c → isBlank c = false
  ends : ∀ c, inner.getLast? = some c → isBlank c = false

/-- **Trimming takes the blanks at the ends, and all of them.** -/
theorem trimmed_trim (cs : List Char) : Trimmed cs (trim cs) := by
  have hfront : cs = cs.takeWhile isBlank ++ trimStart cs := List.takeWhile_append_dropWhile.symm
  have hback : trimStart cs = trim cs ++ ((trimStart cs).reverse.takeWhile isBlank).reverse := by
    rw [trim, trimEnd, ← List.reverse_append, List.takeWhile_append_dropWhile, List.reverse_reverse]
  refine ⟨⟨cs.takeWhile isBlank, ((trimStart cs).reverse.takeWhile isBlank).reverse, ?_, ?_, ?_⟩,
    fun _ => not_isBlank_of_head?_trim, fun c hc => ?_⟩
  · rw [List.append_assoc, ← hback]
    exact hfront
  · exact fun c hc => List.mem_takeWhile_imp hc
  · exact fun c hc => List.mem_takeWhile_imp (List.mem_reverse.mp hc)
  · have hnot := List.head?_dropWhile_not isBlank (trimStart cs).reverse
    rw [trim, trimEnd, List.getLast?_reverse] at hc
    rw [hc] at hnot
    simpa using hnot

end Text
end ImagePolicy
