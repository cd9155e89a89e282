/-
# The forms a record is written in

A record can be written as an object, with its members in any order and among members that nobody
knows, or as a list of its first fields. All of these read alike, since nothing is read of an object
but what it gives each field (`Codec.IsRow.object_iff`). An object that gives a field twice and a
list with an item too many are no records at all, and null is a value of none but the fields that
may be null.

A record that stands in another may be written in any of its forms too: two trees that read alike
are as good as each other where one record holds the other.

Key definitions: `Row.leading`, `Row.assign`, `Codec.FormsAlike`, `Codec.Alike`, `Codec.Holds`.
Key theorems: `Codec.IsRow.object_iff`, `Codec.IsRow.list_set`, `Codec.IsRow.formsAlike`,
`Codec.IsRow.holds`, `records_read_alike`.
-/
import ImagePolicy.Proofs.Record.RoundTrip
import Mathlib.Data.List.Nodup

namespace ImagePolicy

open Json (Tree Value)

/-- Two lists that go item by item with a third, go with each other. -/
theorem forall₂_comp_iff {α β γ : Type} {R : α → γ → Prop} {S : β → γ → Prop} {xs : List α}
    {ys : List β} : (∃ zs, List.Forall₂ R xs zs ∧ List.Forall₂ S ys zs) ↔
      List.Forall₂ (fun x y => ∃ z, R x z ∧ S y z) xs ys := by
  constructor
  · rintro ⟨zs, hR, hS⟩
    induction hR generalizing ys with
    | nil => cases hS; exact .nil
    | cons hx _ ih => cases hS with | cons hy hys => exact .cons ⟨_, hx, hy⟩ (ih hys)
  · intro h
    induction h with
    | nil => exact ⟨[], .nil, .nil⟩
    | cons hz _ ih =>
      obtain ⟨z, hx, hy⟩ := hz
      obtain ⟨zs, hxs, hys⟩ := ih
      exact ⟨z :: zs, .cons hx hxs, .cons hy hys⟩

/-! ### What an object gives its fields -/

namespace Row

variable {names : List String} {name other : String} {row : Row} {ms ms' extra : Written}
  {t : Tree} {ts : List Tree}

theorem given_perm (name : String) (h : ms.Perm ms') : (given name ms).Perm (given name ms') :=
  h.filterMap _

/-- The order of the members is nothing to a field. -/
theorem single?_perm (name : String) (h : ms.Perm ms') : single? name ms = single? name ms' := by
  have hgiven := given_perm name h
  rw [single?, single?]
  generalize given name ms = ts at hgiven ⊢
  generalize given name ms' = ts' at hgiven ⊢
  rcases ts with _ | ⟨t, _ | ⟨u, ts⟩⟩
  · rw [List.nil_perm.mp hgiven]
  · rw [List.singleton_perm.mp hgiven]
  · have hlength := hgiven.length_eq
    rcases ts' with _ | ⟨t', _ | ⟨u', ts'⟩⟩
    · cases hlength
    · cases hlength
    · rfl

/-- Nor is a member of another name. -/
theorem single?_append_of_unknown (h : ∀ m ∈ extra, m.1 ≠ some name) :
    single? name (ms ++ extra) = single? name ms := by
  rw [single?, given_append, given_eq_nil_iff.mpr h, List.append_nil, single?]

theorem length_given (name : String) (ms : Written) :
    (given name ms).length = (ms.map Prod.fst).count (some name) := by
  induction ms with
  | nil => rfl
  | cons m ms ih =>
    rw [List.map_cons, List.count_cons, ← ih]
    by_cases hm : m.1 = some name <;> simp [given, hm]

/-- What is given twice is a fault. -/
theorem single?_eq_none (h : 2 ≤ (given name ms).length) : single? name ms = none := by
  rw [single?]
  split
  · next heq => simp [heq] at h
  · next heq => simp [heq] at h
  · rfl

/-- What a field is given is what stands under its name. -/
theorem eq_of_single?_eq_some {o : Option Tree} (hm : (some name, t) ∈ ms)
    (h : single? name ms = some o) : o = some t := by
  have hgiven : t ∈ given name ms := List.mem_filterMap.mpr ⟨(some name, t), hm, if_pos rfl⟩
  rw [single?] at h
  split at h
  · next heq => simp [heq] at hgiven
  · next u heq =>
    rw [heq, List.mem_singleton] at hgiven
    rw [← Option.some.inj h, hgiven]
  · cases h

/-- Two objects have the same row if they give each field the same. -/
theorem ofMembers?_congr
    (hkeys : (∀ m ∈ ms, m.1.isSome = true) ↔ ∀ m ∈ ms', m.1.isSome = true)
    (h : ∀ name ∈ names, single? name ms = single? name ms') :
    ofMembers? names ms = ofMembers? names ms' := by
  refine Option.ext fun row => ?_
  have hsame : ∀ {name : String} {o : Option Tree}, (name, o) ∈ names.zip row →
      (single? name ms = some o ↔ single? name ms' = some o) := fun hzip => by
    rw [h _ (List.of_mem_zip hzip).1]
  rw [ofMembers?_eq_some_iff, ofMembers?_eq_some_iff, hkeys, List.forall₂_iff_zip,
    List.forall₂_iff_zip]
  refine and_congr_right fun _ => and_congr_right fun _ => ?_
  exact ⟨fun hrow _ _ hzip => (hsame hzip).mp (hrow hzip),
    fun hrow _ _ hzip => (hsame hzip).mpr (hrow hzip)⟩

/-! ### The first fields -/

/-- The members of an object that gives trees to the first fields. -/
def leading (names : List String) (ts : List Tree) : Written :=
  (names.zip ts).map fun (name, t) => (some name, t)

theorem leading_eq_members (names : List String) (ts : List Tree) :
    leading names ts = members names (ts.map some) := by
  rw [leading, members, List.zip_map_right, List.filterMap_map, ← List.filterMap_eq_map]
  rfl

/-- Fields that are given nothing at the end of a row add no members. -/
theorem members_append_replicate : ∀ (names : List String) (row : Row) (n : Nat),
    members names (row ++ List.replicate n none) = members names row
  | [], _, _ => rfl
  | _ :: _, [], 0 => rfl
  | _ :: names, [], n + 1 => by
    have ih := members_append_replicate names [] n
    simpa [members, List.replicate_succ] using ih
  | name :: names, o :: row, n => by
    rw [List.cons_append, members_cons, members_cons, members_append_replicate names row n]

/-- The row of a list of the first fields. -/
theorem length_padded (h : ts.length ≤ names.length) :
    (ts.map some ++ List.replicate (names.length - ts.length) none).length = names.length := by
  rw [List.length_append, List.length_map, List.length_replicate]
  omega

/-- **A list is as good as the object of its fields.** -/
theorem ofTree?_list (hnodup : names.Nodup) (h : ts.length ≤ names.length) :
    ofTree? names (.list ts) = ofTree? names (.object (leading names ts)) :=
  calc ofTree? names (.list ts)
      = some (ts.map some ++ List.replicate (names.length - ts.length) none) := if_pos h
    _ = ofTree? names (.object (members names
          (ts.map some ++ List.replicate (names.length - ts.length) none))) :=
        (ofTree?_members hnodup (length_padded h)).symm
    _ = ofTree? names (.object (leading names ts)) := by
        rw [members_append_replicate, leading_eq_members]

/-- Each of the first fields is given its item, and the others nothing. -/
theorem single?_leading (hnodup : names.Nodup) (h : ts.length ≤ names.length) {i : Nat}
    (hi : i < names.length) : single? names[i] (leading names ts) = some ts[i]? := by
  have hrow := forall₂_single?_members [] names _ hnodup (length_padded h) fun _ _ => rfl
  rw [List.nil_append, members_append_replicate, ← leading_eq_members] at hrow
  have hsingle := hrow.get hi (by rw [length_padded h]; exact hi)
  simp only [List.get_eq_getElem] at hsingle
  rw [hsingle]
  by_cases hts : i < ts.length
  · simp [hts, List.getElem_append_left]
  · simp [Nat.le_of_not_lt hts, List.getElem_append_right]

theorem isSome_of_mem_leading (names : List String) (ts : List Tree) :
    ∀ m ∈ leading names ts, m.1.isSome = true := by
  intro m hm
  obtain ⟨p, -, rfl⟩ := List.mem_map.mp hm
  rfl

/-! ### One field given anew -/

/-- The members of an object, with nothing but a given tree under one name. -/
def assign (name : String) (t : Tree) (ms : Written) : Written :=
  ms.filter (fun m => m.1 ≠ some name) ++ [(some name, t)]

theorem single?_assign_self (name : String) (t : Tree) (ms : Written) :
    single? name (assign name t ms) = some (some t) := by
  have hfirst : given name (ms.filter fun m => m.1 ≠ some name) = [] := by
    rw [given_eq_nil_iff]
    exact fun m hm => of_decide_eq_true (List.mem_filter.mp hm).2
  rw [single?, assign, given_append, hfirst]
  simp [given]

theorem single?_assign_of_ne (hne : other ≠ name) (t : Tree) (ms : Written) :
    single? other (assign name t ms) = single? other ms := by
  have hkept : given other (ms.filter fun m => m.1 ≠ some name) = given other ms := by
    rw [given, List.filterMap_filter]
    congr 1
    funext m
    by_cases hm : m.1 = some name <;> simp [hm, Ne.symm hne]
  rw [assign, single?_append_of_unknown, single?, hkept, single?]
  simpa using Ne.symm hne

theorem forall_isSome_assign_iff (name : String) (t : Tree) (ms : Written) :
    (∀ m ∈ assign name t ms, m.1.isSome = true) ↔ ∀ m ∈ ms, m.1.isSome = true := by
  simp only [assign, List.mem_append, List.mem_filter, List.mem_singleton]
  constructor
  · intro h m hm
    by_cases hkey : m.1 = some name
    · rw [hkey]
      rfl
    · exact h m (.inl ⟨hm, decide_eq_true hkey⟩)
  · rintro h m (⟨hm, -⟩ | rfl)
    · exact h m hm
    · rfl

theorem assign_assign (name : String) (t u : Tree) (ms : Written) :
    assign name t (assign name u ms) = assign name t ms := by
  simp [assign, List.filter_append]

/-- **An item of a list put anew** is the field of that place given anew. -/
theorem ofTree?_list_set (hnodup : names.Nodup) (h : ts.length ≤ names.length) {i : Nat}
    (hi : i < ts.length) (hname : names[i]? = some name) (t : Tree) :
    ofTree? names (.list (ts.set i t)) =
      ofTree? names (.object (assign name t (leading names ts))) := by
  obtain ⟨hlt, rfl⟩ := List.getElem?_eq_some_iff.mp hname
  have hlength : (ts.set i t).length ≤ names.length := by rwa [List.length_set]
  rw [ofTree?_list hnodup hlength]
  refine ofMembers?_congr ?_ fun name hname => ?_
  · rw [forall_isSome_assign_iff]
    exact iff_of_true (isSome_of_mem_leading _ _) (isSome_of_mem_leading _ _)
  · obtain ⟨j, hj, rfl⟩ := List.mem_iff_getElem.mp hname
    rw [single?_leading hnodup hlength hj]
    -- the item that was put is that of one name, and every other name has the item it had
    by_cases hij : i = j
    · subst hij
      rw [single?_assign_self, List.getElem?_set_self hi]
    · have hne : names[j] ≠ names[i] := fun heq =>
        hij ((List.Nodup.getElem_inj_iff hnodup).mp heq).symm
      rw [single?_assign_of_ne hne, single?_leading hnodup h hj, List.getElem?_set_ne hij]

end Row

/-! ### Forms of one record -/

namespace Codec

variable {ρ : Type} {k : Codec ρ} {names nullable : List String} {fields : List (RecordField ρ)}
  {name : String} {ms ms' : Written} {t t' : Tree} {ts : List Tree} {x : ρ}

namespace IsRow

/-- Every name of a record is that of a field. -/
theorem exists_field (h : k.IsRow names fields) (hname : name ∈ names) :
    ∃ f, (name, f) ∈ names.zip fields := by
  obtain ⟨i, hi, rfl⟩ := List.mem_iff_getElem.mp hname
  have hfield : i < fields.length := h.length ▸ hi
  have hzip : i < (names.zip fields).length := by
    rw [List.length_zip]
    exact Nat.lt_min.mpr ⟨hi, hfield⟩
  exact ⟨fields[i], List.mem_iff_getElem.mpr ⟨i, hzip, List.getElem_zip⟩⟩

/-- Nothing is read of a tree but its row. -/
theorem ofTree?_congr (h : k.IsRow names fields)
    (hrow : Row.ofTree? names t = Row.ofTree? names t') : k.ofTree? t = k.ofTree? t' := by
  refine Option.ext fun x => ?_
  rw [h.ofTree?, h.ofTree?, hrow]

/-- A tree without a row is no record. -/
theorem ofTree?_eq_none (h : k.IsRow names fields) (hrow : Row.ofTree? names t = none) :
    k.ofTree? t = none := by
  refine Option.eq_none_iff_forall_ne_some.mpr fun x hx => ?_
  obtain ⟨row, hsome, -⟩ := (h.ofTree? t x).mp hx
  rw [hrow] at hsome
  cases hsome

/-- **Nothing is read of an object** but what it gives each field. -/
theorem object_iff (h : k.IsRow names fields) : k.ofTree? (.object ms) = some x ↔
    (∀ m ∈ ms, m.1.isSome = true) ∧
      ∀ p ∈ names.zip fields, ∃ o, Row.single? p.1 ms = some o ∧ p.2.Reads o x := by
  have hzip : List.Forall₂ (fun name f => ∃ o, Row.single? name ms = some o ∧ f.Reads o x)
      names fields ↔
      ∀ p ∈ names.zip fields, ∃ o, Row.single? p.1 ms = some o ∧ p.2.Reads o x := by
    rw [List.forall₂_iff_zip]
    exact ⟨fun hall p hp => hall.2 hp, fun hall => ⟨h.length.symm, fun hp => hall _ hp⟩⟩
  -- the row is what stands between the names and the fields
  rw [h.ofTree?, ← hzip, ← forall₂_comp_iff]
  simp only [Row.ofTree?, Row.ofMembers?_eq_some_iff]
  constructor
  · rintro ⟨row, ⟨hkeys, hsingle⟩, hreads⟩
    exact ⟨hkeys, row, hsingle, hreads⟩
  · rintro ⟨hkeys, row, hsingle, hreads⟩
    exact ⟨row, ⟨hkeys, hsingle⟩, hreads⟩

/-- A list with an item put anew is read like the object with that field given anew. -/
theorem list_set (h : k.IsRow names fields) (hle : ts.length ≤ names.length) {i : Nat}
    (hi : i < ts.length) (hname : names[i]? = some name) (t : Tree) :
    k.ofTree? (.list (ts.set i t)) =
      k.ofTree? (.object (Row.assign name t (Row.leading names ts))) :=
  h.ofTree?_congr (Row.ofTree?_list_set h.nodup hle hi hname t)

/-- A list with an item too many is no record. -/
theorem list_eq_none (h : k.IsRow names fields) (hlt : names.length < ts.length) :
    k.ofTree? (.list ts) = none :=
  h.ofTree?_eq_none (if_neg (Nat.not_le.mpr hlt))

end IsRow

/-- Which fields of a record may be null: what is read with one of them can be read with null in its
place, and nothing is read with null for another. -/
structure NullFields (names : List String) (fields : List (RecordField ρ))
    (nullable : List String) : Prop where
  takes : ∀ name ∈ nullable, ∀ x, ∃ x', ∀ p ∈ names.zip fields,
    (p.1 = name → p.2.Reads (some .null) x') ∧ (p.1 ≠ name → ∀ o, p.2.Reads o x → p.2.Reads o x')
  refuses : ∀ p ∈ names.zip fields, p.1 ∉ nullable → ∀ x, ¬p.2.Reads (some .null) x

/-- The forms of a record read alike, each as the record that the fields make of what they are
given. -/
structure FormsAlike (k : Codec ρ) (names : List String) (fields : List (RecordField ρ))
    (nullable : List String) : Prop where
  /-- An object reads as a record if each field reads what the object gives it as that of the
  record, and a field that is left out is given nothing. -/
  object : ∀ (ms : Written) (x : ρ), k.ofTree? (.object ms) = some x ↔
    (∀ m ∈ ms, m.1.isSome = true) ∧
      ∀ p ∈ names.zip fields, ∃ o, Row.single? p.1 ms = some o ∧ p.2.Reads o x
  /-- Neither the order of the members matters nor what stands under names that nobody knows. -/
  members : ∀ ms ms' extra : Written, (∀ m ∈ extra, ∃ name, m.1 = some name ∧ name ∉ names) →
    ms'.Perm (ms ++ extra) → k.ofTree? (.object ms') = k.ofTree? (.object ms)
  /-- The first fields may be given as a list. -/
  items : ∀ ts : List Tree, ts.length ≤ names.length →
    k.ofTree? (.list ts) = k.ofTree? (.object (Row.leading names ts))
  /-- A field that is given twice is a fault. -/
  repeated : ∀ ms : Written, ∀ name ∈ names, 2 ≤ (ms.map Prod.fst).count (some name) →
    k.ofTree? (.object ms) = none
  /-- And so is an item too many. -/
  surplus : ∀ ts : List Tree, names.length < ts.length → k.ofTree? (.list ts) = none
  /-- A field that may not be null is a fault when it is null. -/
  refuses_null : ∀ ms : Written, ∀ name ∈ names, name ∉ nullable → (some name, .null) ∈ ms →
    k.ofTree? (.object ms) = none
  /-- In an object that reads well as it is or with something else for a field, this field can be
  null just if it may be null. -/
  null_member : ∀ (ms : Written) (t : Tree), ∀ name ∈ names,
    (k.ofTree? (.object ms)).isSome = true ∨
      (k.ofTree? (.object (Row.assign name t ms))).isSome = true →
    ((k.ofTree? (.object (Row.assign name .null ms))).isSome = true ↔ name ∈ nullable)
  /-- And so in a list. -/
  null_item : ∀ (ts : List Tree) (t : Tree) (i : Nat) (name : String),
    names[i]? = some name → i < ts.length →
    (k.ofTree? (.list (ts.set i t))).isSome = true →
    ((k.ofTree? (.list (ts.set i .null))).isSome = true ↔ name ∈ nullable)

namespace IsRow

/-- A field that may not be null is a fault when it is null. -/
theorem object_eq_none_of_null (h : k.IsRow names fields) (hnull : NullFields names fields nullable)
    (hname : name ∈ names) (hnot : name ∉ nullable) (hm : (some name, .null) ∈ ms) :
    k.ofTree? (.object ms) = none := by
  obtain ⟨f, hf⟩ := h.exists_field hname
  refine Option.eq_none_iff_forall_ne_some.mpr fun x hx => ?_
  obtain ⟨o, hsingle, hreads⟩ := (h.object_iff.mp hx).2 _ hf
  rw [Row.eq_of_single?_eq_some hm hsingle] at hreads
  exact hnull.refuses _ hf hnot x hreads

/-- A field that may be null can be null wherever it stands. -/
theorem isSome_assign_null (h : k.IsRow names fields) (hnull : NullFields names fields nullable)
    (hname : name ∈ nullable) (hread : (k.ofTree? (.object ms)).isSome = true) :
    (k.ofTree? (.object (Row.assign name .null ms))).isSome = true := by
  obtain ⟨x, hx⟩ := Option.isSome_iff_exists.mp hread
  obtain ⟨hkeys, hfields⟩ := h.object_iff.mp hx
  obtain ⟨x', hx'⟩ := hnull.takes name hname x
  refine Option.isSome_iff_exists.mpr ⟨x', h.object_iff.mpr ⟨?_, fun p hp => ?_⟩⟩
  · rwa [Row.forall_isSome_assign_iff]
  · obtain ⟨hself, hother⟩ := hx' p hp
    by_cases hp' : p.1 = name
    · exact ⟨some .null, hp' ▸ Row.single?_assign_self _ _ _, hself hp'⟩
    · obtain ⟨o, hsingle, ho⟩ := hfields p hp
      exact ⟨o, (Row.single?_assign_of_ne hp' _ _).trans hsingle, hother hp' o ho⟩

/-- In an object that reads well but for a field, this field can be null just if it may be null. -/
theorem isSome_assign_null_iff (h : k.IsRow names fields)
    (hnull : NullFields names fields nullable) (hname : name ∈ names)
    (hread : (k.ofTree? (.object ms)).isSome = true ∨
      (k.ofTree? (.object (Row.assign name t ms))).isSome = true) :
    (k.ofTree? (.object (Row.assign name .null ms))).isSome = true ↔ name ∈ nullable := by
  constructor
  · intro hsome
    by_contra hnot
    have hm : (some name, Tree.null) ∈ Row.assign name .null ms :=
      List.mem_append_right _ List.mem_cons_self
    rw [h.object_eq_none_of_null hnull hname hnot hm] at hsome
    cases hsome
  · intro hmem
    -- whatever else the field was given is replaced
    rcases hread with hread | hread
    · exact h.isSome_assign_null hnull hmem hread
    · rw [← Row.assign_assign name .null t ms]
      exact h.isSome_assign_null hnull hmem hread

/-- **The forms of a record read alike** if it is a row of its fields. -/
theorem formsAlike (h : k.IsRow names fields) (hnull : NullFields names fields nullable) :
    k.FormsAlike names fields nullable where
  object _ _ := h.object_iff
  members ms ms' extra hextra hperm := by
    refine h.ofTree?_congr (Row.ofMembers?_congr ?_ fun name hname => ?_)
    · have hknown : ∀ m ∈ extra, m.1.isSome = true := by
        intro m hm
        obtain ⟨other, hother, -⟩ := hextra m hm
        rw [hother]
        rfl
      constructor
      · exact fun h m hm => h m (hperm.mem_iff.mpr (List.mem_append_left extra hm))
      · intro h m hm
        rcases List.mem_append.mp (hperm.mem_iff.mp hm) with hm | hm
        · exact h m hm
        · exact hknown m hm
    · have hunknown : ∀ m ∈ extra, m.1 ≠ some name := by
        intro m hm heq
        obtain ⟨other, hother, hnot⟩ := hextra m hm
        exact hnot (Option.some.inj (hother.symm.trans heq) ▸ hname)
      rw [Row.single?_perm name hperm, Row.single?_append_of_unknown hunknown]
  items ts hle := h.ofTree?_congr (Row.ofTree?_list h.nodup hle)
  repeated ms name hname htwice := by
    rw [← Row.length_given] at htwice
    obtain ⟨f, hf⟩ := h.exists_field hname
    refine Option.eq_none_iff_forall_ne_some.mpr fun x hx => ?_
    obtain ⟨o, hsingle, -⟩ := (h.object_iff.mp hx).2 _ hf
    rw [Row.single?_eq_none htwice] at hsingle
    cases hsingle
  surplus ts hlt := h.list_eq_none hlt
  refuses_null ms name hname hnot hm := h.object_eq_none_of_null hnull hname hnot hm
  null_member ms t name hname hread := h.isSome_assign_null_iff hnull hname hread
  null_item ts t i name hname hi hread := by
    have hle : ts.length ≤ names.length := by
      by_contra hlt
      rw [h.list_eq_none (by rw [List.length_set]; omega)] at hread
      cases hread
    rw [h.list_set hle hi hname] at hread ⊢
    exact h.isSome_assign_null_iff hnull (List.mem_of_getElem? hname) (.inr hread)

end IsRow

/-! ### Records in records -/

section Nested

variable {α : Type} {inner : Codec α}

/-- Two trees read alike and are null only together. -/
structure Alike (k : Codec α) (t t' : Tree) : Prop where
  ofTree? : k.ofTree? t = k.ofTree? t'
  null : t = .null ↔ t' = .null

/-- Two lists of trees read alike item by item. -/
def AlikeItems (k : Codec α) : Tree → Tree → Prop
  | .list ts, .list ts' => List.Forall₂ k.Alike ts ts'
  | _, _ => False

theorem AlikeItems.ofTree? (h : inner.AlikeItems t t') :
    inner.list.ofTree? t = inner.list.ofTree? t' := by
  cases t with
  | list ts =>
    cases t' with
    | list ts' =>
      have hitems : List.Forall₂ inner.Alike ts ts' := h
      have hmap : ts.mapM inner.ofTree? = ts'.mapM inner.ofTree? := by
        clear h
        induction hitems with
        | nil => rfl
        | cons ht _ ih => rw [List.mapM_cons, List.mapM_cons, ht.ofTree?, ih]
      exact hmap
    | _ => cases h
  | _ => cases h

/-- It makes no difference to a record which of two related trees stands in a field. -/
def Holds (k : Codec ρ) (names : List String) (name : String) (R : Tree → Tree → Prop) : Prop :=
  ∀ t t', R t t' →
    (∀ ms, k.ofTree? (.object (Row.assign name t ms)) =
      k.ofTree? (.object (Row.assign name t' ms))) ∧
    ∀ (ts : List Tree) (i : Nat), names[i]? = some name →
      k.ofTree? (.list (ts.set i t)) = k.ofTree? (.list (ts.set i t'))

namespace IsRow

/-- Two trees are as good as each other in a field that reads them alike. -/
theorem assign_congr (h : k.IsRow names fields)
    (hfield : ∀ p ∈ names.zip fields, p.1 = name →
      ∀ x, p.2.Reads (some t) x ↔ p.2.Reads (some t') x) (ms : Written) :
    k.ofTree? (.object (Row.assign name t ms)) = k.ofTree? (.object (Row.assign name t' ms)) := by
  refine Option.ext fun x => ?_
  rw [h.object_iff, h.object_iff, Row.forall_isSome_assign_iff, Row.forall_isSome_assign_iff]
  refine and_congr_right fun _ => forall₂_congr fun p hp => ?_
  by_cases hp' : p.1 = name
  · rw [hp', Row.single?_assign_self, Row.single?_assign_self]
    simpa using hfield p hp hp' x
  · rw [Row.single?_assign_of_ne hp', Row.single?_assign_of_ne hp']

/-- **A field holds a record in any form** if it reads its forms alike. -/
theorem holds (h : k.IsRow names fields) {R : Tree → Tree → Prop}
    (hfield : ∀ t t', R t t' → ∀ p ∈ names.zip fields, p.1 = name →
      ∀ x, p.2.Reads (some t) x ↔ p.2.Reads (some t') x) : k.Holds names name R := by
  intro t t' hR
  have hassign := h.assign_congr (hfield t t' hR)
  refine ⟨hassign, fun ts i hname => ?_⟩
  by_cases hle : ts.length ≤ names.length
  · by_cases hi : i < ts.length
    · rw [h.list_set hle hi hname, h.list_set hle hi hname, hassign]
    · rw [List.set_eq_of_length_le (Nat.le_of_not_lt hi),
        List.set_eq_of_length_le (Nat.le_of_not_lt hi)]
  · have hlt : ∀ u, names.length < (ts.set i u).length := by
      intro u
      rw [List.length_set]
      exact Nat.lt_of_not_le hle
    rw [h.list_eq_none (hlt t), h.list_eq_none (hlt t')]

end IsRow

end Nested

end Codec

/-! ### What the fields make of null -/

section Null

variable {α : Type} {k : Codec α} {t t' : Tree}

@[simp]
theorem Codec.string_ofTree?_null : Codec.string.ofTree? .null = none := rfl

@[simp]
theorem Codec.list_ofTree?_null : k.list.ofTree? .null = none := rfl

@[simp]
theorem Codec.members_ofTree?_null (above : Nat) : (Codec.members above).ofTree? .null = none := rfl

@[simp]
theorem Codec.value_ofTree?_null (above : Nat) :
    (Codec.value above).ofTree? .null = some .null := by
  simp only [Codec.value, Field.value?, Tree.value?]

@[simp]
theorem Slot.required_read?_some : (Slot.required k).read? (some t) = k.ofTree? t := rfl

@[simp]
theorem Slot.defaulted_read?_some (write : α → Option Value) (default : α) :
    (Slot.defaulted k write default).read? (some t) = k.ofTree? t := rfl

@[simp]
theorem Slot.given_read?_some (default : α) :
    (Slot.given k default).read? (some t) = k.ofTree? t := rfl

@[simp]
theorem Slot.optional_read?_null : (Slot.optional k).read? (some .null) = some none := rfl

theorem Slot.optional_read?_of_ne_null (h : t ≠ .null) :
    (Slot.optional k).read? (some t) = (k.ofTree? t).map some := by
  cases t with
  | null => exact absurd rfl h
  | _ => rfl

/-- An optional field reads alike what reads alike and is null only together. -/
theorem Codec.Alike.optional_read? (h : k.Alike t t') :
    (Slot.optional k).read? (some t) = (Slot.optional k).read? (some t') := by
  by_cases ht : t = .null
  · rw [ht, h.null.mp ht]
  · have ht' : t' ≠ .null := fun heq => ht (h.null.mpr heq)
    rw [Slot.optional_read?_of_ne_null ht, Slot.optional_read?_of_ne_null ht', h.ofTree?]

end Null

/-! ### The records -/

theorem RuleLists.nullFields : Codec.NullFields fields slots [] where
  takes := nofun
  refuses := by simp [fields, slots, strings, Slot.on]

theorem Exceptions.nullFields : Codec.NullFields fields slots [] where
  takes := nofun
  refuses := by simp [fields, slots, RuleLists.strings, Slot.on]

namespace PolicySpec

theorem nullFields : Codec.NullFields fields slots ["configuration", "exceptions"] where
  takes name hname p := by
    simp only [List.mem_cons, List.not_mem_nil, or_false] at hname
    rcases hname with rfl | rfl
    · exact ⟨{ p with configuration := none }, by simp [fields, slots, Slot.on]⟩
    · exact ⟨{ p with exceptions := none }, by simp [fields, slots, Slot.on]⟩
  refuses := by simp [fields, slots, Slot.on]

theorem holds_configuration : codec.Holds fields "configuration" RuleLists.codec.Alike := by
  refine codec_isRow.holds fun t t' h => ?_
  simp [fields, slots, Slot.on, h.optional_read?]

theorem holds_exceptions : codec.Holds fields "exceptions" Exceptions.codec.Alike := by
  refine codec_isRow.holds fun t t' h => ?_
  simp [fields, slots, Slot.on, h.optional_read?]

end PolicySpec

theorem RuleResult.nullFields (above : Nat) : Codec.NullFields fields (slots above) [] where
  takes := nofun
  refuses := by simp [fields, slots, metadataSlot, Slot.on]

namespace CheckGroup

variable (above : Nat)

theorem nullFields : Codec.NullFields fields (slots above) [] where
  takes := nofun
  refuses := by simp [fields, slots, resultsSlot, Slot.on]

theorem holds_results : ∀ name ∈ ["successes", "warnings", "failures"],
    (codec above).Holds fields name (RuleResult.codec (above + 2)).AlikeItems := by
  intro name hname
  refine codec_isRow.holds fun t t' h => ?_
  simp only [List.mem_cons, List.not_mem_nil, or_false] at hname
  rcases hname with rfl | rfl | rfl <;> simp [fields, slots, resultsSlot, Slot.on, h.ofTree?]

end CheckGroup

theorem Signature.nullFields : Codec.NullFields fields slots ["certificate", "chain"] where
  takes name hname s := by
    simp only [List.mem_cons, List.not_mem_nil, or_false] at hname
    rcases hname with rfl | rfl
    · exact ⟨{ s with certificate := none }, by simp [fields, slots, Slot.on]⟩
    · exact ⟨{ s with chain := none }, by simp [fields, slots, Slot.on]⟩
  refuses := by simp [fields, slots, Slot.on]

namespace Attestation

variable (above : Nat)

theorem nullFields : Codec.NullFields fields (slots above) ["statement"] where
  takes name hname a := by
    obtain rfl := List.mem_singleton.mp hname
    exact ⟨{ a with statement := .null }, by simp [fields, slots, Slot.on]⟩
  refuses := by simp [fields, slots, Slot.on]

theorem holds_signatures : (codec above).Holds fields "signatures" Signature.codec.AlikeItems := by
  refine codec_isRow.holds fun t t' h => ?_
  simp [fields, slots, Slot.on, h.ofTree?]

end Attestation

/-- **All forms of a record read alike**, also where it stands in another: of a policy and the lists
in it, of a result, a check group, a signature and an attestation, however deep they stand. Of the
fields, those that may be without value can be null, and so can the statement of an attestation. -/
theorem records_read_alike (above : Nat) :
    PolicySpec.codec.FormsAlike PolicySpec.fields PolicySpec.slots
      ["configuration", "exceptions"] ∧
    RuleLists.codec.FormsAlike RuleLists.fields RuleLists.slots [] ∧
    Exceptions.codec.FormsAlike Exceptions.fields Exceptions.slots [] ∧
    (RuleResult.codec above).FormsAlike RuleResult.fields (RuleResult.slots above) [] ∧
    (CheckGroup.codec above).FormsAlike CheckGroup.fields (CheckGroup.slots above) [] ∧
    Signature.codec.FormsAlike Signature.fields Signature.slots ["certificate", "chain"] ∧
    (Attestation.codec above).FormsAlike Attestation.fields (Attestation.slots above)
      ["statement"] ∧
    PolicySpec.codec.Holds PolicySpec.fields "configuration" RuleLists.codec.Alike ∧
    PolicySpec.codec.Holds PolicySpec.fields "exceptions" Exceptions.codec.Alike ∧
    (∀ name ∈ ["successes", "warnings", "failures"], (CheckGroup.codec above).Holds
      CheckGroup.fields name (RuleResult.codec (above + 2)).AlikeItems) ∧
    (Attestation.codec above).Holds Attestation.fields "signatures" Signature.codec.AlikeItems := by
  refine ⟨PolicySpec.codec_isRow.formsAlike PolicySpec.nullFields,
    RuleLists.codec_isRow.formsAlike RuleLists.nullFields,
    Exceptions.codec_isRow.formsAlike Exceptions.nullFields,
    RuleResult.codec_isRow.formsAlike (RuleResult.nullFields above),
    CheckGroup.codec_isRow.formsAlike (CheckGroup.nullFields above),
    Signature.codec_isRow.formsAlike Signature.nullFields,
    Attestation.codec_isRow.formsAlike (Attestation.nullFields above), ?_⟩
  exact ⟨PolicySpec.holds_configuration, PolicySpec.holds_exceptions,
    CheckGroup.holds_results above, Attestation.holds_signatures above⟩

/-- A list that ends early is an object among unknown members, in whatever order. -/
example : Signature.codec.ofTree? (.list [.text (some ""), .text (some "MEUC"), .null]) =
    Signature.codec.ofTree? (.object [(some "chain", .null), (some "note", .text none),
      (some "sig", .text (some "MEUC"))]) := by
  rfl

end ImagePolicy
