/-
# What a JSON document says

A value is asked what kind it is, and an object what it holds under a key; what is not there, or is
of another kind, reads as absent. A document is bytes that say a value. In the value that is read
the members of an object are in key order, whatever order they were written in
(`Json.collect_eq_of_perm`).

Key definitions: `documentValue?`.
Key theorems: `Json.Value.get?_eq_some_iff`, `Json.Value.at?_cons_eq_some_iff`,
`Json.collect_eq_of_perm`, `Json.ordered_eq_of_render_eq`, `documentValue?_encode`.
-/
import ImagePolicy.Proofs.Json.Indented
import ImagePolicy.Proofs.Json.Nesting
import ImagePolicy.Proofs.Text.Encoding

namespace ImagePolicy

open Json (Value)

/-- The value of a JSON document, in which at most `levels` lists and objects may enclose one
another. -/
def documentValue? (levels : Nat) (document : Bytes) : Option Value :=
  (Json.read (Utf8.decode document)).bind (Json.Tree.value? levels)

namespace Json

namespace Value

variable {v w : Value} {key : String}

theorem string?_eq_some_iff {text : String} : v.string? = some text ↔ v = .text text := by
  cases v <;> simp [string?]

theorem items?_eq_some_iff {items : List Value} : v.items? = some items ↔ v = .list items := by
  cases v <;> simp [items?]

theorem members?_eq_some_iff {ms : Members} : v.members? = some ms ↔ v = .object ms := by
  cases v <;> simp [members?]

theorem isText_iff : v.isText = true ↔ ∃ text, v = .text text := by
  simp only [isText, Option.isSome_iff_exists, string?_eq_some_iff]

theorem isObject_iff : v.isObject = true ↔ ∃ ms, v = .object ms := by
  simp only [isObject, Option.isSome_iff_exists, members?_eq_some_iff]

/-- Only objects hold something under a key. -/
theorem get?_eq_some_iff :
    v.get? key = some w ↔ ∃ ms, v = .object ms ∧ ms.lookup key = some w := by
  cases v <;> simp [get?]

theorem at?_nil_eq_some_iff : v.at? [] = some w ↔ v = w := by
  rw [at?, Option.some.injEq]

/-- A path leads from an object to what it holds under the first key, and on from there. -/
theorem at?_cons_eq_some_iff {keys : List String} :
    v.at? (key :: keys) = some w ↔
      ∃ ms u, v = .object ms ∧ ms.lookup key = some u ∧ u.at? keys = some w := by
  rw [at?, Option.bind_eq_some_iff]
  simp only [get?_eq_some_iff]
  constructor
  · rintro ⟨u, ⟨ms, rfl, hu⟩, hw⟩
    exact ⟨ms, u, rfl, hu, hw⟩
  · rintro ⟨ms, u, rfl, hu, hw⟩
    exact ⟨u, ⟨ms, rfl, hu⟩, hw⟩

end Value

/-! ### Members by key -/

/-- Of values that are picked by key each is found under its key. -/
theorem lookup_filterMap {f : String → Option Value} {key : String} {keys : List String}
    (hkey : key ∈ keys) : (keys.filterMap fun k => (f k).map (k, ·)).lookup key = f key := by
  have hnone : ∀ keys : List String, f key = none →
      (keys.filterMap fun k => (f k).map (k, ·)).lookup key = none := by
    intro keys hf
    rw [List.lookup_eq_none_iff]
    intro m hm
    obtain ⟨k, -, hk⟩ := List.mem_filterMap.mp hm
    obtain ⟨v, hv, rfl⟩ := Option.map_eq_some_iff.mp hk
    rw [bne_iff_ne]
    rintro rfl
    cases hf.symm.trans hv
  induction keys with
  | nil => cases hkey
  | cons k keys ih =>
    by_cases hk : key = k
    · subst hk
      cases hf : f key with
      | none => exact hnone _ hf
      | some v => simp [hf]
    · have hrest := ih (List.mem_of_ne_of_mem hk hkey)
      cases hf : f k with
      | none => simpa [List.filterMap_cons, hf] using hrest
      | some v => simpa [List.filterMap_cons, hf, List.lookup_cons, beq_false_of_ne hk] using hrest

/-! ### Members in key order -/

variable {key : String} {value : Value} {ms sorted : Members}

/-- A member that is added under a new key is one more. -/
theorem insert_perm (hkey : key ∉ ms.map Prod.fst) :
    (insert key value ms).Perm ((key, value) :: ms) := by
  induction ms with
  | nil => exact .refl _
  | cons m ms ih =>
    obtain ⟨hne, hrest⟩ := List.ne_and_not_mem_of_not_mem_cons hkey
    unfold insert
    by_cases hlt : key < m.1
    · rw [if_pos hlt]
    · rw [if_neg hlt, if_neg hne]
      exact ((ih hrest).cons m).trans (.swap _ _ _)

/-- Members of different keys are collected all. -/
theorem collect_perm (hnodup : (ms.map Prod.fst).Nodup) : (collect ms).Perm ms := by
  have hfold : ∀ (ms sorted : Members), ((ms ++ sorted).map Prod.fst).Nodup →
      (ms.foldl (fun sorted m => insert m.1 m.2 sorted) sorted).Perm (ms ++ sorted) := by
    intro ms
    induction ms with
    | nil => exact fun sorted _ => .refl sorted
    | cons m ms ih =>
      intro sorted hnodup
      rw [List.cons_append, List.map_cons, List.nodup_cons] at hnodup
      have hfresh : m.1 ∉ sorted.map Prod.fst := fun hmem =>
        hnodup.1 (by rw [List.map_append]; exact List.mem_append_right _ hmem)
      have hmove : (ms ++ insert m.1 m.2 sorted).Perm (m :: (ms ++ sorted)) :=
        ((insert_perm hfresh).append_left ms).trans List.perm_middle
      have hkeys : ((ms ++ insert m.1 m.2 sorted).map Prod.fst).Nodup :=
        ((hmove.map Prod.fst).nodup_iff).mpr (List.nodup_cons.mpr hnodup)
      exact (ih _ hkeys).trans hmove
  have hcollected := hfold ms [] (by rwa [List.append_nil])
  rwa [List.append_nil] at hcollected

theorem ascending_collect (ms : Members) : Ascending (collect ms) := by
  have hfold : ∀ (ms sorted : Members), Ascending sorted →
      Ascending (ms.foldl (fun sorted m => insert m.1 m.2 sorted) sorted) := by
    intro ms
    induction ms with
    | nil => exact fun _ h => h
    | cons m ms ih => exact fun sorted h => ih _ (ascending_insert h)
  exact hfold ms [] .nil

/-- **Members are collected into key order**, whatever order they are in. -/
theorem collect_eq_of_perm (h : ms.Perm sorted) (hsorted : Ascending sorted) :
    collect ms = sorted := by
  have hkeys : (sorted.map Prod.fst).Nodup := by
    refine List.Pairwise.imp (fun hlt => ?_) hsorted
    rintro rfl
    exact String.lt_irrefl _ hlt
  have hperm : (collect ms).Perm sorted :=
    (collect_perm (((h.map Prod.fst).nodup_iff).mpr hkeys)).trans h
  have hbefore : ∀ {ms : Members}, Ascending ms → ms.Pairwise fun m n => m.1 < n.1 :=
    List.pairwise_map.mp
  refine hperm.eq_of_pairwise (fun m n _ _ hmn hnm => ?_) (hbefore (ascending_collect ms))
    (hbefore hsorted)
  exact absurd (String.lt_trans hmn hnm) (String.lt_irrefl _)

/-- Members of different keys that are the same in key order are the same in some order. -/
theorem perm_of_collect_eq {others : Members} (hms : (ms.map Prod.fst).Nodup)
    (hothers : (others.map Prod.fst).Nodup) (h : collect ms = collect others) : ms.Perm others :=
  (collect_perm hms).symm.trans (h ▸ collect_perm hothers)

/-- **Values with the same text are the same in key order**, if their numbers are whole. -/
theorem ordered_eq_of_render_eq {v w : Value} (hv : Whole v) (hw : Whole w)
    (h : render v = render w) : v.ordered = w.ordered := by
  have htree : v.tree = w.tree := by
    have hread := read_render v
    rw [h, read_render] at hread
    exact (Option.some.inj hread).symm
  have hvalue := value?_tree v (max (depth v) (depth w)) hv (Nat.le_max_left _ _)
  rw [htree, value?_tree w _ hw (Nat.le_max_right _ _)] at hvalue
  exact (Option.some.inj hvalue).symm

end Json

/-- **A document with an indented text is read as its value**, if it may be nested as deep as it
is. -/
theorem documentValue?_encode {v : Value} {levels : Nat} (hwhole : Json.Whole v)
    (hdepth : Json.depth v ≤ levels) :
    documentValue? levels (Utf8.encode (Json.renderIndented v)) = some v.ordered := by
  have hread : Json.read ((Json.renderIndented v).map some) = some v.tree := by
    have hread := Json.read_renderIndented_append v (.inl rfl) (rfl : Json.skipBlanks [] = [])
    rwa [List.append_nil] at hread
  rw [documentValue?, Utf8.decode_encode, hread, Option.bind_some,
    Json.value?_tree v levels hwhole hdepth]

end ImagePolicy
