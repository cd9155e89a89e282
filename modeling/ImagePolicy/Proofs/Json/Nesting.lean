/-
# Values in lists and objects

What holds of a list or of an object because it holds of everything in it, and how deep values are
nested that were read: no deeper than they were allowed to be (`Json.depth_le_of_value?`).

Key theorems: `Json.depth_list_le_iff`, `Json.depth_object_le_iff`, `Json.value?_tree_of_ordered`,
`Json.depth_le_of_value?`.
-/
import ImagePolicy.Proofs.Json.RoundTrip

namespace ImagePolicy
namespace Json

variable {n : Nat} {vs : List Value} {ms : Members}

/-! ### Everything in a list or an object -/

theorem itemTrees_eq_map (vs : List Value) : Value.itemTrees vs = vs.map Value.tree := by
  induction vs with
  | nil => rfl
  | cons v vs ih => rw [Value.itemTrees, ih, List.map_cons]

theorem memberTrees_eq_map (ms : Members) :
    Value.memberTrees ms = ms.map fun m => (some m.1, m.2.tree) := by
  induction ms with
  | nil => rfl
  | cons m ms ih => rw [Value.memberTrees, ih, List.map_cons]

theorem orderedItems_eq_map (vs : List Value) : Value.orderedItems vs = vs.map Value.ordered := by
  induction vs with
  | nil => rfl
  | cons v vs ih => rw [Value.orderedItems, ih, List.map_cons]

theorem orderedMembers_eq_map (ms : Members) :
    Value.orderedMembers ms = ms.map fun m => (m.1, m.2.ordered) := by
  induction ms with
  | nil => rfl
  | cons m ms ih => rw [Value.orderedMembers, ih, List.map_cons]

theorem wholeItems_iff : WholeItems vs ↔ ∀ v ∈ vs, Whole v := by
  induction vs with
  | nil => simp [WholeItems]
  | cons v vs ih => rw [WholeItems, ih, List.forall_mem_cons]

theorem wholeMembers_iff : WholeMembers ms ↔ ∀ m ∈ ms, Whole m.2 := by
  induction ms with
  | nil => simp [WholeMembers]
  | cons m ms ih => rw [WholeMembers, ih, List.forall_mem_cons]

theorem orderedItems_iff : OrderedItems vs ↔ ∀ v ∈ vs, Ordered v := by
  induction vs with
  | nil => simp [OrderedItems]
  | cons v vs ih => rw [OrderedItems, ih, List.forall_mem_cons]

theorem depthItems_le_iff : depthItems vs ≤ n ↔ ∀ v ∈ vs, depth v ≤ n := by
  induction vs with
  | nil => simp [depthItems]
  | cons v vs ih => rw [depthItems, Nat.max_le, ih, List.forall_mem_cons]

theorem depthMembers_le_iff : depthMembers ms ≤ n ↔ ∀ m ∈ ms, depth m.2 ≤ n := by
  induction ms with
  | nil => simp [depthMembers]
  | cons m ms ih => rw [depthMembers, Nat.max_le, ih, List.forall_mem_cons]

/-- A list is nested one deeper than its items. -/
theorem depth_list_le_iff : depth (.list vs) ≤ n + 1 ↔ ∀ v ∈ vs, depth v ≤ n := by
  rw [depth, Nat.add_le_add_iff_right, depthItems_le_iff]

/-- An object is nested one deeper than the values of its members. -/
theorem depth_object_le_iff : depth (.object ms) ≤ n + 1 ↔ ∀ m ∈ ms, depth m.2 ≤ n := by
  rw [depth, Nat.add_le_add_iff_right, depthMembers_le_iff]

/-! ### What is read -/

/-- **A value in key order is read back as it is**, if it may be nested as deep as it is. -/
theorem value?_tree_of_ordered {v : Value} (hordered : Ordered v) (hwhole : Whole v)
    (hdepth : depth v ≤ n) : v.tree.value? n = some v := by
  rw [value?_tree v n hwhole hdepth, ordered_eq_of_ordered hordered]

/-- Collected members are among those they were collected from. -/
theorem mem_of_mem_collect {m : String × Value} (h : m ∈ collect ms) : m ∈ ms := by
  have hfold : ∀ (ms sorted : Members),
      m ∈ ms.foldl (fun sorted m => insert m.1 m.2 sorted) sorted → m ∈ sorted ∨ m ∈ ms := by
    intro ms
    induction ms with
    | nil => exact fun _ h => .inl h
    | cons x ms ih =>
      intro sorted h
      rcases ih _ h with h | h
      · rcases mem_insert h with rfl | h
        · exact .inr List.mem_cons_self
        · exact .inl h
      · exact .inr (List.mem_cons_of_mem _ h)
  exact (hfold ms [] h).resolve_left (fun h => nomatch h)

theorem depth_collect_le (h : depthMembers ms ≤ n) : depth (.object (collect ms)) ≤ n + 1 := by
  rw [depthMembers_le_iff] at h
  exact depth_object_le_iff.mpr fun m hm => h m (mem_of_mem_collect hm)

mutual

/-- **A value that is read is nested no deeper than it may be.** -/
theorem depth_le_of_value? : ∀ {levels : Nat} {t : Tree} {v : Value},
    t.value? levels = some v → depth v ≤ levels
  | _, .null, v, h => by cases h; exact Nat.zero_le _
  | _, .bool _, v, h => by cases h; exact Nat.zero_le _
  | _, .number l, v, h => by
    obtain ⟨x, -, rfl⟩ := Option.map_eq_some_iff.mp h
    exact Nat.zero_le _
  | _, .text content, v, h => by
    obtain ⟨s, -, rfl⟩ := Option.map_eq_some_iff.mp h
    exact Nat.zero_le _
  | 0, .list _, _, h => nomatch h
  | levels + 1, .list ts, v, h => by
    obtain ⟨vs, hvs, rfl⟩ := Option.map_eq_some_iff.mp h
    exact Nat.add_le_add_right (depthItems_le_of_items? hvs) 1
  | 0, .object _, _, h => nomatch h
  | levels + 1, .object ts, v, h => by
    obtain ⟨ms, hms, rfl⟩ := Option.map_eq_some_iff.mp h
    exact depth_collect_le (depthMembers_le_of_members? hms)

theorem depthItems_le_of_items? : ∀ {levels : Nat} {ts : List Tree} {vs : List Value},
    Tree.items? levels ts = some vs → depthItems vs ≤ levels
  | _, [], vs, h => by cases h; exact Nat.zero_le _
  | levels, t :: ts, vs, h => by
    unfold Tree.items? at h
    split at h
    · next hv hvs =>
      cases h
      exact Nat.max_le.mpr ⟨depth_le_of_value? hv, depthItems_le_of_items? hvs⟩
    · cases h

theorem depthMembers_le_of_members? : ∀ {levels : Nat} {ts : List (Option String × Tree)}
    {ms : Members}, Tree.members? levels ts = some ms → depthMembers ms ≤ levels
  | _, [], ms, h => by cases h; exact Nat.zero_le _
  | levels, (key, t) :: ts, ms, h => by
    unfold Tree.members? at h
    split at h
    · next hv hms =>
      cases h
      exact Nat.max_le.mpr ⟨depth_le_of_value? hv, depthMembers_le_of_members? hms⟩
    · cases h

end

end Json
end ImagePolicy
