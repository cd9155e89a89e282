/-
# Rows and fields read back

A record is written field by field and read field by field, and what is shown here of one field is
put together for records behind. A codec writes values of a type in JSON and reads them back; a slot
does the same for a field, which may be left out. Both are lawful up to a depth of nesting if they
read back what they wrote, as long as the JSON values that were kept in it as they are
(metadata, statements, sources) can be read back, and if whatever they read can be written again
within this depth.

The row of an object holds for each field what the object gives under its name
(`Row.ofMembers?_eq_some_iff`); in one that was written this is what was written for the field
(`Row.ofTree?_encode`). So it does not matter to a record which of its fields are left out.

Key definitions: `Row.members`, `Codec`, `Codec.Lawful`, `Slot`, `Slot.Lawful`, `Codec.IsRow`.
Key theorems: `Row.ofTree?_members`, `Row.ofTree?_encode`, `Codec.Lawful.list`,
`Slot.lawful_of_default`, `Codec.IsRow.lawful`.
-/
import ImagePolicy.Record.Row
import ImagePolicy.Proofs.Json.Nesting
import Mathlib.Data.List.Forall2

namespace ImagePolicy

open Json (Tree Value)

/-! ### Lists read item by item -/

section Items

variable {α β : Type} {f : α → Option β} {xs : List α} {ys : List β}

/-- A list is read just as all its items are. -/
theorem mapM_eq_some_iff_forall₂ :
    xs.mapM f = some ys ↔ List.Forall₂ (fun x y => f x = some y) xs ys := by
  induction xs generalizing ys with
  | nil =>
    rw [List.forall₂_nil_left_iff]
    exact ⟨fun h => (Option.some.inj h).symm, fun h => congrArg some h.symm⟩
  | cons x xs ih =>
    rw [List.forall₂_cons_left_iff, List.mapM_cons]
    cases hx : f x with
    | none => simp
    | some y =>
      cases hxs : xs.mapM f with
      | none =>
        have hnone : ∀ zs, ¬List.Forall₂ (fun x y => f x = some y) xs zs := fun zs hzs => by
          rw [ih.mpr hzs] at hxs
          cases hxs
        simp [hnone]
      | some zs =>
        have hzs : ∀ us, List.Forall₂ (fun x y => f x = some y) xs us ↔ us = zs := fun us => by
          rw [← ih, hxs, Option.some.injEq, eq_comm]
        simp [hzs, eq_comm]

end Items

/-! ### Rows -/

namespace Row

variable {names : List String} {name : String} {row : Row} {ms : Written}
  {values : List (Option Value)}

/-- The members that are read where the values of a row were written. -/
def written (names : List String) (values : List (Option Value)) : Written :=
  (names.zip values).filterMap fun (name, value) => value.map fun v => (some name, v.tree)

/-- The members that give a row, in the order of its fields. -/
def members (names : List String) (row : Row) : Written :=
  (names.zip row).filterMap fun (name, tree) => tree.map fun t => (some name, t)

theorem tree_encode (names : List String) (values : List (Option Value)) :
    (encode names values).tree = .object (written names values) := by
  rw [encode, Value.tree, Json.memberTrees_eq_map, written, List.map_filterMap]
  congr 2
  funext ⟨name, value⟩
  cases value <;> rfl

theorem written_eq_members (names : List String) (values : List (Option Value)) :
    written names values = members names (values.map (Option.map Value.tree)) := by
  rw [written, members, List.zip_map_right, List.filterMap_map]
  congr 1
  funext ⟨name, value⟩
  cases value <;> rfl

theorem members_cons (name : String) (tree : Option Tree) :
    members (name :: names) (tree :: row) =
      (tree.map fun t => (some name, t)).toList ++ members names row := by
  cases tree <;> rfl

theorem given_append (name : String) (ms others : Written) :
    given name (ms ++ others) = given name ms ++ given name others :=
  List.filterMap_append

theorem given_eq_nil_iff : given name ms = [] ↔ ∀ m ∈ ms, m.1 ≠ some name := by
  rw [given, List.filterMap_eq_nil_iff]
  refine forall₂_congr fun m _ => ?_
  by_cases h : m.1 = some name <;> simp [h]

/-- The members of a row have names of its fields. -/
theorem exists_of_mem_members {m : Option String × Tree} (h : m ∈ members names row) :
    ∃ name ∈ names, m.1 = some name := by
  obtain ⟨⟨name, tree⟩, hzip, htree⟩ := List.mem_filterMap.mp h
  obtain ⟨t, -, rfl⟩ := Option.map_eq_some_iff.mp htree
  exact ⟨name, (List.of_mem_zip hzip).1, rfl⟩

/-- Nothing is given under a name that is not among those of the fields. -/
theorem given_members_of_not_mem (h : name ∉ names) : given name (members names row) = [] := by
  refine given_eq_nil_iff.mpr fun m hm heq => ?_
  obtain ⟨other, hother, hkey⟩ := exists_of_mem_members hm
  exact h (Option.some.inj (hkey.symm.trans heq) ▸ hother)

/-- A row is what an object gives for each field, if all its members have names. -/
theorem ofMembers?_eq_some_iff : ofMembers? names ms = some row ↔
    (∀ m ∈ ms, m.1.isSome = true) ∧
      List.Forall₂ (fun name tree => single? name ms = some tree) names row := by
  rw [ofMembers?, ← mapM_eq_some_iff_forall₂, ← List.all_eq_true]
  by_cases hkeys : ms.all (fun m => m.1.isSome) = true <;> simp [hkeys]

theorem forall₂_single?_members : ∀ (front : Written) (names : List String) (row : Row),
    names.Nodup → row.length = names.length → (∀ name ∈ names, given name front = []) →
    List.Forall₂ (fun name tree => single? name (front ++ members names row) = some tree) names row
  | _, [], [], _, _, _ => .nil
  | _, [], _ :: _, _, h, _ => nomatch h
  | _, _ :: _, [], _, h, _ => nomatch h
  | front, n :: names, tree :: row, hnodup, hlength, hfront => by
    obtain ⟨hn, hnames⟩ := List.nodup_cons.mp hnodup
    obtain ⟨hfirst, hrest⟩ := List.forall_mem_cons.mp hfront
    have hsingle : single? n (front ++ members (n :: names) (tree :: row)) = some tree := by
      rw [single?, given_append, hfirst, members_cons, given_append, given_members_of_not_mem hn]
      cases tree <;> simp [given]
    -- the first field is no more in the way of the others than what stands in front of it
    have hnext : ∀ name ∈ names,
        given name (front ++ (tree.map fun t => (some n, t)).toList) = [] := by
      intro name hname
      have hne : n ≠ name := fun he => hn (he ▸ hname)
      rw [given_append, hrest name hname]
      cases tree <;> simp [given, hne]
    have ih := forall₂_single?_members _ names row hnames (Nat.succ.inj hlength) hnext
    rw [List.append_assoc, ← members_cons] at ih
    exact .cons hsingle ih

/-- **The row of the members that give a row** is this row. -/
theorem ofTree?_members (hnodup : names.Nodup) (hlength : row.length = names.length) :
    ofTree? names (.object (members names row)) = some row := by
  refine ofMembers?_eq_some_iff.mpr ⟨fun m hm => ?_, ?_⟩
  · obtain ⟨name, -, hkey⟩ := exists_of_mem_members hm
    rw [hkey]
    rfl
  · exact forall₂_single?_members [] names row hnodup hlength fun _ _ => rfl

/-- **The row of a record that was written** holds what was written for each field. -/
theorem ofTree?_encode (hnodup : names.Nodup) (hlength : values.length = names.length) :
    ofTree? names (encode names values).tree = some (values.map (Option.map Value.tree)) := by
  rw [tree_encode, written_eq_members]
  exact ofTree?_members hnodup (by rw [List.length_map, hlength])

/-- A record is nested no more than one deeper than the values of its fields. -/
theorem depth_encode_le {n : Nat} (h : ∀ o ∈ values, ∀ v ∈ o, Json.depth v ≤ n) :
    Json.depth (encode names values) ≤ n + 1 := by
  refine Json.depth_object_le_iff.mpr fun m hm => ?_
  obtain ⟨⟨name, value⟩, hzip, hvalue⟩ := List.mem_filterMap.mp hm
  obtain ⟨v, hv, rfl⟩ := Option.map_eq_some_iff.mp hvalue
  exact h value (List.of_mem_zip hzip).2 v hv

/-- A value that was written is a member of the object. -/
theorem depth_le_of_depth_encode {n : Nat} (hlength : values.length = names.length)
    (h : Json.depth (encode names values) ≤ n + 1) : ∀ o ∈ values, ∀ v ∈ o, Json.depth v ≤ n := by
  rintro _ ho v rfl
  obtain ⟨i, hi, hget⟩ := List.mem_iff_getElem.mp ho
  have hname : i < names.length := hlength ▸ hi
  have hzip : (names[i], some v) ∈ names.zip values :=
    hget ▸ List.mem_iff_getElem.mpr ⟨i, by simp [hi, hname], by simp⟩
  exact Json.depth_object_le_iff.mp h (names[i], v) (List.mem_filterMap.mpr ⟨_, hzip, rfl⟩)

end Row

/-! ### Codecs -/

/-- How values of a type are written in JSON and read back. Some of them keep JSON values as they
are. -/
structure Codec (α : Type) where
  encode : α → Value
  ofTree? : Tree → Option α
  kept : α → List Value

/-- How a field is written, unless it is left out, and read back. -/
structure Slot (α : Type) where
  write : α → Option Value
  read? : Option Tree → Option α
  kept : α → List Value

/-- A JSON value that is read back as it is, however deep it may be nested. -/
def Readable (v : Value) : Prop := Json.Ordered v ∧ Json.Whole v

/-- What is written is read back, and what is read can be written, within a depth of nesting. -/
structure Codec.Lawful {α : Type} (k : Codec α) (n : Nat) : Prop where
  reads : ∀ x, (∀ v ∈ k.kept x, Readable v) → Json.depth (k.encode x) ≤ n →
    k.ofTree? (k.encode x).tree = some x
  sound : ∀ t x, k.ofTree? t = some x →
    (∀ v ∈ k.kept x, Json.Ordered v) ∧ Json.depth (k.encode x) ≤ n

/-- The same of a field. -/
structure Slot.Lawful {α : Type} (f : Slot α) (n : Nat) : Prop where
  reads : ∀ x, (∀ v ∈ f.kept x, Readable v) → (∀ w ∈ f.write x, Json.depth w ≤ n) →
    f.read? ((f.write x).map Value.tree) = some x
  sound : ∀ t x, f.read? t = some x →
    (∀ v ∈ f.kept x, Json.Ordered v) ∧ ∀ w ∈ f.write x, Json.depth w ≤ n

namespace Codec

variable {α : Type} {k : Codec α} {n : Nat}

/-- Strings. -/
def string : Codec String where
  encode := .text
  ofTree? := Field.string?
  kept _ := []

/-- JSON values that so many lists and objects enclose. -/
def value (above : Nat) : Codec Value where
  encode := id
  ofTree? := Field.value? above
  kept v := [v]

/-- Members of an object that so many lists and objects enclose. -/
def members (above : Nat) : Codec Json.Members where
  encode := .object
  ofTree? := Field.members? above
  kept ms := [.object ms]

/-- Lists. -/
def list (k : Codec α) : Codec (List α) where
  encode xs := .list (xs.map k.encode)
  ofTree? := Field.list? k.ofTree?
  kept xs := xs.flatMap k.kept

theorem string_lawful : string.Lawful n where
  reads _ _ _ := rfl
  sound _ _ _ := ⟨nofun, Nat.zero_le n⟩

theorem value_lawful (above : Nat) : (value above).Lawful (Json.maxNesting - above) where
  reads v h hdepth :=
    have hv := h v List.mem_cons_self
    Json.value?_tree_of_ordered hv.1 hv.2 hdepth
  sound _ _ h :=
    ⟨List.forall_mem_singleton.mpr (Json.ordered_of_value? h), Json.depth_le_of_value? h⟩

theorem members_lawful {above : Nat} (h : above < Json.maxNesting) :
    (members above).Lawful (Json.maxNesting - above) := by
  have hlevels : Json.maxNesting - above = Json.maxNesting - above - 1 + 1 := by omega
  refine ⟨fun ms hms hdepth => ?_, fun t ms hread => ?_⟩
  · obtain ⟨hordered, hwhole⟩ := hms _ List.mem_cons_self
    have hmembers := Json.members?_memberTrees ms (Json.maxNesting - above - 1) hwhole
      (Nat.le_sub_one_of_lt hdepth)
    rw [Json.orderedMembers_eq_of_ordered hordered.2] at hmembers
    simp only [members, Value.tree, Field.members?, hmembers, Option.map_some,
      Json.collect_of_ascending hordered.1]
  · cases t with
    | object ts =>
      obtain ⟨found, hfound, rfl⟩ := Option.map_eq_some_iff.mp hread
      rw [hlevels]
      exact ⟨List.forall_mem_singleton.mpr (Json.ordered_collect (Json.ordered_of_members? hfound)),
        Json.depth_collect_le (Json.depthMembers_le_of_members? hfound)⟩
    | _ => cases hread

theorem mapM_eq_some_of_forall {f : Tree → Option α} {g : α → Tree} {xs : List α}
    (h : ∀ x ∈ xs, f (g x) = some x) : (xs.map g).mapM f = some xs :=
  mapM_eq_some_iff_forall₂.mpr (List.forall₂_map_left_iff.mpr (List.forall₂_same.mpr h))

theorem exists_of_mapM_eq_some {f : Tree → Option α} {ts : List Tree} {xs : List α}
    (h : ts.mapM f = some xs) : ∀ x ∈ xs, ∃ t, f t = some x := by
  have hread := mapM_eq_some_iff_forall₂.mp h
  clear h
  induction hread with
  | nil => exact nofun
  | cons hx _ ih => exact List.forall_mem_cons.mpr ⟨⟨_, hx⟩, ih⟩

/-- **Lists are read back as their items are**, one level deeper. -/
theorem Lawful.list (hk : k.Lawful n) : k.list.Lawful (n + 1) := by
  refine ⟨fun xs hkept hdepth => ?_, fun t xs hread => ?_⟩
  · have hitems := List.forall_mem_map.mp (Json.depth_list_le_iff.mp hdepth)
    have hread : ∀ x ∈ xs, k.ofTree? (k.encode x).tree = some x := fun x hx =>
      hk.reads x (fun v hv => hkept v (List.mem_flatMap.mpr ⟨x, hx, hv⟩)) (hitems x hx)
    have htree : (k.list.encode xs).tree = .list (xs.map fun x => (k.encode x).tree) := by
      rw [Codec.list, Value.tree, Json.itemTrees_eq_map, List.map_map]
      rfl
    rw [htree]
    exact mapM_eq_some_of_forall hread
  · cases t with
    | list ts =>
      have hitems : ∀ x ∈ xs, (∀ v ∈ k.kept x, Json.Ordered v) ∧ Json.depth (k.encode x) ≤ n :=
        fun x hx =>
          have ⟨t, ht⟩ := exists_of_mapM_eq_some hread x hx
          hk.sound t x ht
      refine ⟨fun v hv => ?_, Json.depth_list_le_iff.mpr <|
        List.forall_mem_map.mpr fun x hx => (hitems x hx).2⟩
      obtain ⟨x, hx, hv⟩ := List.mem_flatMap.mp hv
      exact (hitems x hx).1 v hv
    | _ => cases hread

end Codec

/-! ### Slots -/

namespace Slot

variable {α : Type} {k : Codec α} {n : Nat}

/-- A field that has to be there. -/
def required (k : Codec α) : Slot α where
  write x := some (k.encode x)
  read? := Field.required? k.ofTree?
  kept := k.kept

/-- A field that has a value when it is missing, and may be left out when it has this value. -/
def defaulted (k : Codec α) (write : α → Option Value) (default : α) : Slot α where
  write := write
  read? := Field.defaulted? k.ofTree? default
  kept := k.kept

/-- A field that has a value when it is missing, and is written even when it has this value. -/
def given (k : Codec α) (default : α) : Slot α :=
  defaulted k (fun x => some (k.encode x)) default

/-- A field that may have no value, and is then left out. -/
def optional (k : Codec α) : Slot (Option α) where
  write o := o.map k.encode
  read? := Field.optional? k.ofTree?
  kept o := o.toList.flatMap k.kept

theorem forall_mem_some {P : Value → Prop} {v : Value} (h : P v) : ∀ w ∈ some v, P w := by
  intro w hw
  rw [Option.mem_some_iff] at hw
  exact hw ▸ h

theorem required_lawful (hk : k.Lawful n) : (required k).Lawful n where
  reads x hkept hdepth := hk.reads x hkept (hdepth _ rfl)
  sound t x hread := by
    cases t with
    | none => cases hread
    | some t => exact (hk.sound t x hread).imp_right forall_mem_some

/-- **A field may be left out when it has its default**, if that can be written itself. -/
theorem lawful_of_default (hk : k.Lawful n) {write : α → Option Value} {default : α}
    (hwrite : ∀ x, write x = some (k.encode x) ∨ write x = none ∧ x = default)
    (hkept : ∀ v ∈ k.kept default, Json.Ordered v)
    (hdepth : ∀ w ∈ write default, Json.depth w ≤ n) : (defaulted k write default).Lawful n := by
  refine ⟨fun x hx hd => ?_, fun t x hread => ?_⟩
  · simp only [defaulted] at hd ⊢
    rcases hwrite x with heq | ⟨heq, rfl⟩
    · rw [heq] at hd ⊢
      exact hk.reads x hx (hd _ rfl)
    · rw [heq]
      rfl
  · cases t with
    | none =>
      cases hread
      exact ⟨hkept, hdepth⟩
    | some t =>
      obtain ⟨hordered, hd⟩ := hk.sound t x hread
      refine ⟨hordered, ?_⟩
      rcases hwrite x with heq | ⟨heq, -⟩
      · simp only [defaulted, heq]
        exact forall_mem_some hd
      · simp only [defaulted, heq]
        exact nofun

/-- A string that is left out when it is empty. -/
theorem writeString_lawful : (defaulted .string Field.writeString "").Lawful n := by
  refine lawful_of_default Codec.string_lawful (fun s => ?_) nofun nofun
  by_cases hs : s = ""
  · exact .inr ⟨if_pos hs, hs⟩
  · exact .inl (if_neg hs)

/-- A list that is left out when it is empty. -/
theorem writeList_lawful (hk : k.Lawful n) :
    (defaulted k.list (Field.writeList k.encode) []).Lawful (n + 1) := by
  refine lawful_of_default hk.list (fun xs => ?_) nofun nofun
  cases xs with
  | nil => exact .inr ⟨rfl, rfl⟩
  | cons x xs => exact .inl rfl

/-- A string that is written even when it is empty. -/
theorem givenString_lawful : (given .string "").Lawful n :=
  lawful_of_default Codec.string_lawful (fun _ => .inl rfl) nofun (forall_mem_some (Nat.zero_le n))

/-- A list that is written even when it is empty. -/
theorem givenList_lawful (hk : k.Lawful n) : (given k.list []).Lawful (n + 1) :=
  lawful_of_default hk.list (fun _ => .inl rfl) nofun
    (forall_mem_some (Nat.succ_le_succ (Nat.zero_le n)))

/-- A field without value is told from one with a value as long as no value is written as null. -/
theorem optional_lawful (hk : k.Lawful n) (hnull : ∀ x, (k.encode x).tree ≠ .null) :
    (optional k).Lawful n := by
  refine ⟨fun o hkept hdepth => ?_, fun t o hread => ?_⟩
  · cases o with
    | none => rfl
    | some x =>
      have hx := hk.reads x (by simpa [optional] using hkept) (hdepth _ rfl)
      simp only [optional, Option.map_some, Field.optional?]
      split
      · next heq => exact absurd (Option.some.inj heq) (hnull x)
      · next heq => rw [← Option.some.inj heq, hx, Option.map_some]
      · next heq => cases heq
  · simp only [optional, Field.optional?] at hread
    split at hread
    · cases hread
      exact ⟨nofun, nofun⟩
    · obtain ⟨x, hx, rfl⟩ := Option.map_eq_some_iff.mp hread
      obtain ⟨hordered, hdepth⟩ := hk.sound _ x hx
      exact ⟨by simpa [optional] using hordered, forall_mem_some hdepth⟩
    · cases hread
      exact ⟨nofun, nofun⟩

end Slot

/-! ### Records -/

/-- A field of a record: how it is written for a record, and which records are read with it. -/
structure RecordField (ρ : Type) where
  write : ρ → Option Value
  Reads : Option Tree → ρ → Prop
  kept : ρ → List Value

/-- The slot of a field that a record has. -/
def Slot.on {ρ α : Type} (f : Slot α) (field : ρ → α) : RecordField ρ where
  write x := f.write (field x)
  Reads t x := f.read? t = some (field x)
  kept x := f.kept (field x)

/-- A field of a record is lawful like a slot. -/
structure RecordField.Lawful {ρ : Type} (f : RecordField ρ) (n : Nat) : Prop where
  reads : ∀ x, (∀ v ∈ f.kept x, Readable v) → (∀ w ∈ f.write x, Json.depth w ≤ n) →
    f.Reads ((f.write x).map Value.tree) x
  sound : ∀ t x, f.Reads t x →
    (∀ v ∈ f.kept x, Json.Ordered v) ∧ ∀ w ∈ f.write x, Json.depth w ≤ n

theorem Slot.Lawful.on {ρ α : Type} {f : Slot α} {n : Nat} (hf : f.Lawful n) (field : ρ → α) :
    (f.on field).Lawful n where
  reads x := hf.reads (field x)
  sound t x := hf.sound t (field x)

/-- A codec writes and reads a record as a row of its fields. -/
structure Codec.IsRow {ρ : Type} (k : Codec ρ) (names : List String)
    (fields : List (RecordField ρ)) : Prop where
  nodup : names.Nodup
  length : fields.length = names.length
  encode : ∀ x, k.encode x = Row.encode names (fields.map fun f => f.write x)
  ofTree? : ∀ t x, k.ofTree? t = some x ↔
    ∃ row, Row.ofTree? names t = some row ∧ List.Forall₂ (fun f o => f.Reads o x) fields row
  kept : ∀ x, k.kept x = fields.flatMap fun f => f.kept x

/-- **A record is lawful as its fields are**, one level deeper. -/
theorem Codec.IsRow.lawful {ρ : Type} {k : Codec ρ} {names : List String}
    {fields : List (RecordField ρ)} {n : Nat} (h : k.IsRow names fields)
    (hfields : ∀ f ∈ fields, f.Lawful n) : k.Lawful (n + 1) := by
  have hkept : ∀ x, (∀ v ∈ k.kept x, Readable v) → ∀ f ∈ fields, ∀ v ∈ f.kept x, Readable v := by
    intro x hx f hf v hv
    rw [h.kept] at hx
    exact hx v (List.mem_flatMap.mpr ⟨f, hf, hv⟩)
  have hlength : ∀ x, (fields.map fun f => f.write x).length = names.length := fun x => by
    rw [List.length_map, h.length]
  refine ⟨fun x hx hdepth => ?_, fun t x hread => ?_⟩
  · rw [h.encode] at hdepth ⊢
    have hwritten := List.forall_mem_map.mp (Row.depth_le_of_depth_encode (hlength x) hdepth)
    refine (h.ofTree? _ x).mpr ⟨_, Row.ofTree?_encode h.nodup (hlength x), ?_⟩
    rw [List.map_map, List.forall₂_map_right_iff, List.forall₂_same]
    exact fun f hf => (hfields f hf).reads x (hkept x hx f hf) (hwritten f hf)
  · obtain ⟨row, -, hrow⟩ := (h.ofTree? t x).mp hread
    have hsound : ∀ f ∈ fields,
        (∀ v ∈ f.kept x, Json.Ordered v) ∧ ∀ w ∈ f.write x, Json.depth w ≤ n := by
      intro f hf
      obtain ⟨i, hi, rfl⟩ := List.mem_iff_getElem.mp hf
      exact (hfields _ hf).sound _ x (hrow.get hi (hrow.length_eq ▸ hi))
    rw [h.encode, h.kept]
    refine ⟨fun v hv => ?_, Row.depth_encode_le <| List.forall_mem_map.mpr fun f hf =>
      (hsound f hf).2⟩
    obtain ⟨f, hf, hv⟩ := List.mem_flatMap.mp hv
    exact (hsound f hf).1 v hv

end ImagePolicy
