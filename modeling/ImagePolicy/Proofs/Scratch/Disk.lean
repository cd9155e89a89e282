/-
# What stands on a disk

A node that is put at a path stands there, and a tree that is removed is gone with all in it;
elsewhere nothing changes. So a staged document can be read where it was put, and is gone when it is
released.

Key theorems: `Disk.content?_put_file`, `Disk.node?_put_ne`, `Disk.node?_removeTree`,
`StagedInput.content?_stage`, `StagedInput.node?_release`.
-/
import ImagePolicy.Scratch.StagedInput

namespace ImagePolicy
namespace Disk

variable {d : Disk} {p q : Path} {n : Node}

theorem lookup_filter_none {f : Path × Node → Bool} (entries : List (Path × Node))
    (h : ∀ n, f (q, n) = false) : (entries.filter f).lookup q = none := by
  rw [List.lookup_eq_none_iff]
  intro e he
  have hf : f e = true := (List.mem_filter.mp he).2
  refine bne_iff_ne.mpr fun hq => ?_
  rw [show e = (q, e.2) from Prod.ext hq.symm rfl, h] at hf
  cases hf

/-- A filter that keeps all nodes of a path does not change what it leads to. -/
theorem lookup_filter_all {f : Path × Node → Bool} (entries : List (Path × Node))
    (h : ∀ n, f (q, n) = true) : (entries.filter f).lookup q = entries.lookup q := by
  induction entries with
  | nil => rfl
  | cons e entries ih =>
    by_cases hq : q = e.1
    · subst hq
      rw [List.filter_cons_of_pos (h e.2), List.lookup_cons, List.lookup_cons, beq_self_eq_true]
    · have hne : (q == e.1) = false := beq_eq_false_iff_ne.mpr hq
      rw [List.lookup_cons, hne, List.filter_cons]
      split
      · rw [List.lookup_cons, hne, ih]
      · exact ih

/-- What is put at a path stands there. -/
theorem node?_put_self (h : p ≠ []) : (d.put p n).node? p = some n := by
  have hgone : (d.entries.filter fun e => e.1 ≠ p).lookup p = none :=
    lookup_filter_none _ fun _ => by simp
  rw [node?, if_neg h, put, List.lookup_append, hgone, List.lookup_cons_self, Option.none_or]

/-- What is put at a path changes nothing elsewhere. -/
theorem node?_put_ne (h : q ≠ p) : (d.put p n).node? q = d.node? q := by
  have hkept : (d.entries.filter fun e => e.1 ≠ p).lookup q = d.entries.lookup q :=
    lookup_filter_all _ fun _ => by simp [h]
  have hnone : List.lookup q [(p, n)] = none := by simp [h]
  rw [node?, node?, put, List.lookup_append, hkept, hnone, Option.or_none]

/-- A file that is put at a path is read there. -/
theorem content?_put_file {content : Bytes} (h : p ≠ []) :
    (d.put p (.file content)).content? p = some content := by
  rw [content?, node?_put_self h]

/-- A tree that is not all of the disk does not hold its top. -/
theorem ne_nil_of_within (hq : q ≠ []) (h : within q p = true) : p ≠ [] := by
  rintro rfl
  exact hq (List.prefix_nil.mp (List.isPrefixOf_iff_prefix.mp h))

/-- What is in a tree is gone when the tree is. -/
theorem node?_removeTree (hp : p ≠ []) (h : within q p = true) :
    (d.removeTree q).node? p = none := by
  rw [node?, if_neg hp, removeTree]
  exact lookup_filter_none _ fun _ => by simp [h]

/-- What is not in a tree stays when the tree is removed. -/
theorem node?_removeTree_of_not_within (h : within q p = false) :
    (d.removeTree q).node? p = d.node? p := by
  rw [node?, node?, removeTree]
  congr 1
  exact lookup_filter_all _ fun _ => by simp [h]

end Disk

namespace StagedInput

theorem path_ne_nil (staged : StagedInput) : staged.path ≠ [] := by
  simp [path]

theorem within_path (staged : StagedInput) :
    Disk.within staged.directory staged.path = true := by
  simp [Disk.within, path]

/-- The document that is staged is read at its path. -/
theorem content?_stage (as : List Attestation) (d : Disk) :
    (stage as d).2.content? (stage as d).1.path = some (bytes as) :=
  Disk.content?_put_file (path_ne_nil _)

/-- Nothing stands at the path of a released document. -/
theorem node?_release (staged : StagedInput) (d : Disk) :
    (staged.release d).node? staged.path = none :=
  Disk.node?_removeTree staged.path_ne_nil staged.within_path

end StagedInput
end ImagePolicy
