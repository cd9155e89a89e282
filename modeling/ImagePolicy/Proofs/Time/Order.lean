/-
# The order of instants

Instants stand in a linear order, by their seconds and then by their parts of a second, and the
later of two is their least upper bound. So it does not matter in which order the latest of several
instants is looked for (`Instant.max_assoc`).

Key theorems: `Instant.le_trans`, `Instant.le_antisymm`, `Instant.max_le_iff`, `Instant.max_assoc`.
-/
import ImagePolicy.Time.Instant

namespace ImagePolicy
namespace Instant

variable {a b c : Instant}

theorem le_refl (a : Instant) : a ≤ a := by
  rw [le_def]
  omega

theorem le_trans (hab : a ≤ b) (hbc : b ≤ c) : a ≤ c := by
  rw [le_def] at *
  omega

theorem le_of_not_le (h : ¬a ≤ b) : b ≤ a := by
  rw [le_def] at *
  omega

theorem le_antisymm (hab : a ≤ b) (hba : b ≤ a) : a = b := by
  rw [le_def] at *
  cases a
  cases b
  simp only [mk.injEq] at *
  omega

theorem max_le_iff : a.max b ≤ c ↔ a ≤ c ∧ b ≤ c := by
  unfold Instant.max
  by_cases h : a ≤ b
  · rw [if_pos h]
    exact ⟨fun hb => ⟨le_trans h hb, hb⟩, fun hc => hc.2⟩
  · rw [if_neg h]
    exact ⟨fun ha => ⟨ha, le_trans (le_of_not_le h) ha⟩, fun hc => hc.1⟩

theorem max_eq (a b : Instant) : a.max b = a ∨ a.max b = b := by
  unfold Instant.max
  by_cases h : a ≤ b
  · exact Or.inr (if_pos h)
  · exact Or.inl (if_neg h)

theorem max_assoc (a b c : Instant) : (a.max b).max c = a.max (b.max c) := by
  have hle : ∀ d, (a.max b).max c ≤ d ↔ a.max (b.max c) ≤ d := fun d => by
    simp only [max_le_iff, and_assoc]
  exact le_antisymm ((hle _).mpr (le_refl _)) ((hle _).mp (le_refl _))

end Instant
end ImagePolicy
