/-
# First occurrences

The lists of a context have no repetitions: of equal values the first one stays. What stays has
each of the values once, in the order in which they first occur (`Condensed`), and there is only
one such list. So a list without repetitions stays as it is.

Key definition: `Condensed`.
Key theorems: `Condensed.eq`, `condensed_firstOccurrences`, `mem_firstOccurrences_iff`,
`firstOccurrences_of_nodup`.
-/
import ImagePolicy.Policy.Context
import Mathlib.Data.List.Dedup
import Mathlib.Data.List.Induction

namespace ImagePolicy

variable {values distinct : List String} {v : String}

/-- A list has the values of another, each once, in the order in which they first occur there. -/
structure Condensed (values distinct : List String) : Prop where
  nodup : distinct.Nodup
  mem_iff : ∀ v, v ∈ distinct ↔ v ∈ values
  inOrder : distinct.Pairwise fun v w => values.idxOf v < values.idxOf w

namespace Condensed

/-- There is one such list only. -/
theorem eq {others : List String} (h : Condensed values distinct) (h' : Condensed values others) :
    distinct = others := by
  have hperm : distinct.Perm others := (List.perm_ext_iff_of_nodup h.nodup h'.nodup).mpr fun v =>
    (h.mem_iff v).trans (h'.mem_iff v).symm
  exact hperm.eq_of_pairwise (fun _ _ _ _ hlt hgt => absurd hlt (Nat.lt_asymm hgt)) h.inOrder
    h'.inOrder

/-- Values that are there once each are in order. -/
theorem self (h : values.Nodup) : Condensed values values where
  nodup := h
  mem_iff _ := Iff.rfl
  inOrder := by
    refine List.pairwise_iff_getElem.mpr fun i j hi hj hij => ?_
    rwa [h.idxOf_getElem i hi, h.idxOf_getElem j hj]

/-- A value that was there before changes nothing. -/
theorem append_of_mem (h : Condensed values distinct) (hv : v ∈ values) :
    Condensed (values ++ [v]) distinct where
  nodup := h.nodup
  mem_iff w := by
    rw [h.mem_iff, List.mem_append, List.mem_singleton]
    exact ⟨.inl, fun hw => hw.elim id fun heq => heq ▸ hv⟩
  inOrder := h.inOrder.imp_of_mem fun hx hy hlt => by
    rwa [List.idxOf_append_of_mem ((h.mem_iff _).mp hx),
      List.idxOf_append_of_mem ((h.mem_iff _).mp hy)]

/-- A new value comes last. -/
theorem append_of_not_mem (h : Condensed values distinct) (hv : v ∉ values) :
    Condensed (values ++ [v]) (distinct ++ [v]) where
  nodup := by
    have hnot : v ∉ distinct := mt (h.mem_iff v).mp hv
    exact h.nodup.append (List.nodup_singleton v) (List.disjoint_singleton.mpr hnot)
  mem_iff w := by
    rw [List.mem_append, List.mem_append, h.mem_iff]
  inOrder := by
    have hbefore : ∀ w ∈ distinct, (values ++ [v]).idxOf w = values.idxOf w := fun w hw =>
      List.idxOf_append_of_mem ((h.mem_iff w).mp hw)
    refine List.pairwise_append.mpr ⟨h.inOrder.imp_of_mem fun hx hy hlt => ?_,
      List.pairwise_singleton _ _, fun w hw x hx => ?_⟩
    · rwa [hbefore _ hx, hbefore _ hy]
    · obtain rfl := List.mem_singleton.mp hx
      rw [hbefore w hw, List.idxOf_append_of_notMem hv]
      exact Nat.lt_add_right _ (List.idxOf_lt_length_of_mem ((h.mem_iff w).mp hw))

end Condensed

/-- A value is looked at after those before it. -/
theorem firstOccurrences_append_singleton (values : List String) (v : String) :
    firstOccurrences (values ++ [v]) =
      if v ∈ firstOccurrences values then firstOccurrences values
      else firstOccurrences values ++ [v] := by
  simp only [firstOccurrences, List.foldl_append, List.foldl_cons, List.foldl_nil,
    List.contains_iff_mem]

/-- **The first occurrences are the values in the order in which they first occur.** -/
theorem condensed_firstOccurrences (values : List String) :
    Condensed values (firstOccurrences values) := by
  induction values using List.reverseRecOn with
  | nil => exact .self .nil
  | append_singleton values v ih =>
    rw [firstOccurrences_append_singleton]
    split
    · next hv => exact ih.append_of_mem ((ih.mem_iff v).mp hv)
    · next hv => exact ih.append_of_not_mem (mt (ih.mem_iff v).mpr hv)

/-- Leaving out repetitions leaves the values. -/
theorem mem_firstOccurrences_iff : v ∈ firstOccurrences values ↔ v ∈ values :=
  (condensed_firstOccurrences values).mem_iff v

/-- Where there are no repetitions, none are left out. -/
theorem firstOccurrences_of_nodup (h : values.Nodup) : firstOccurrences values = values :=
  (condensed_firstOccurrences values).eq (.self h)

end ImagePolicy
