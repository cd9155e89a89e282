/-
# Reports that are told apart

A report is written without what never came about, and so are the records in it: an empty string,
an empty list, no metadata. Nothing is lost by this. Of the values that a field may have one at most
is left out, and an object tells which of its fields are written (`Row.ordered_encode_inj`); so a
stage that never ran is told from one that failed without a message, and this one from one that
failed with an empty message. The effective time is told to the nanosecond, in any year, because no
two instants are printed alike.

Two reports have the same text just if they are equal (`reports_lossless`). They may be compared as
JSON values too, where the order of members does not count: then they are the same in key order just
if they are equal. The metadata in a report are supposed to be in key order, which they are if they
were read, and to have whole numbers; how deep they are nested does not matter.

Key definitions: `Row.filled`, `Faithful`, `RuleResult.Readable`, `CheckGroup.Readable`,
`StageStatus.Readable`, `Report.Admissible`.
Key theorems: `Row.mem_filled_iff`, `Row.ordered_encode_inj`, `Faithful.leftOut`, `Faithful.row`,
`Faithful.eq_iff`, `RuleResult.faithful`, `CheckGroup.faithful`, `Signature.faithful`,
`StageStatus.faithful`, `Report.faithful`, `reports_lossless`.
-/
import ImagePolicy.Report
import ImagePolicy.Proofs.Json.Documents
import ImagePolicy.Proofs.Record.Rows
import ImagePolicy.Proofs.Time.Printing
import Mathlib.Data.List.Nodup

namespace ImagePolicy

open Json (Value)

/-! ### Rows -/

namespace Row

variable {names : List String} {values others : List (Option Value)}

/-- The members that a row of values is written with. -/
def filled (names : List String) (values : List (Option Value)) : Json.Members :=
  (names.zip values).filterMap fun (name, value) => value.map fun v => (name, v)

theorem filled_keys_sublist (names : List String) (values : List (Option Value)) :
    ((filled names values).map Prod.fst).Sublist names := by
  induction names generalizing values with
  | nil => exact List.Sublist.refl _
  | cons name names ih =>
    cases values with
    | nil => exact List.nil_sublist _
    | cons value values =>
      cases value with
      | none => exact (ih values).cons name
      | some v => exact (ih values).cons_cons name

/-- A name has a value in its place just if the value is written under it. -/
theorem mem_filled_iff (hnodup : names.Nodup) {i : Nat} (hi : i < names.length) {v : Value} :
    (names[i], v) ∈ filled names values ↔ values[i]? = some (some v) := by
  rw [filled, List.mem_filterMap]
  constructor
  · rintro ⟨⟨name, value⟩, hzip, hmap⟩
    obtain ⟨w, rfl, heq⟩ := Option.map_eq_some_iff.mp hmap
    cases heq
    obtain ⟨j, hj, hget⟩ := List.mem_iff_getElem.mp hzip
    rw [List.length_zip, Nat.lt_min] at hj
    simp only [List.getElem_zip, Prod.mk.injEq] at hget
    obtain ⟨hname, hvalue⟩ := hget
    obtain rfl : j = i := (List.Nodup.getElem_inj_iff hnodup).mp hname
    rw [List.getElem?_eq_getElem hj.2, hvalue]
  · intro hvalue
    obtain ⟨hi', hget⟩ := List.getElem?_eq_some_iff.mp hvalue
    refine ⟨(names[i], some v), List.mem_iff_getElem.mpr ⟨i, ?_, ?_⟩, rfl⟩
    · rw [List.length_zip, Nat.lt_min]
      exact ⟨hi, hi'⟩
    · rw [List.getElem_zip, hget]

theorem orderedMembers_filled (names : List String) (values : List (Option Value)) :
    Value.orderedMembers (filled names values) =
      filled names (values.map (Option.map Value.ordered)) := by
  rw [Json.orderedMembers_eq_map, filled, filled, List.map_filterMap, List.zip_map_right,
    List.filterMap_map]
  congr 1
  funext ⟨name, value⟩
  cases value <;> rfl

theorem whole_encode (h : ∀ o ∈ values, ∀ v ∈ o, Json.Whole v) :
    Json.Whole (encode names values) := by
  refine Json.wholeMembers_iff.mpr fun m hm => ?_
  obtain ⟨⟨name, value⟩, hzip, hvalue⟩ := List.mem_filterMap.mp hm
  obtain ⟨v, hv, rfl⟩ := Option.map_eq_some_iff.mp hvalue
  exact h value (List.of_mem_zip hzip).2 v hv

/-- **An object tells which of its fields are written, and how**, whatever order its members are
in. -/
theorem ordered_encode_inj (hnodup : names.Nodup) (hvalues : values.length = names.length)
    (hothers : others.length = names.length)
    (h : (encode names values).ordered = (encode names others).ordered) :
    values.map (Option.map Value.ordered) = others.map (Option.map Value.ordered) := by
  have hcollect : Json.collect (Value.orderedMembers (filled names values)) =
      Json.collect (Value.orderedMembers (filled names others)) := Value.object.inj h
  rw [orderedMembers_filled, orderedMembers_filled] at hcollect
  have hperm := Json.perm_of_collect_eq ((filled_keys_sublist _ _).nodup hnodup)
    ((filled_keys_sublist _ _).nodup hnodup) hcollect
  have hlength : (values.map (Option.map Value.ordered)).length = names.length := by
    rw [List.length_map, hvalues]
  have hlength' : (others.map (Option.map Value.ordered)).length = names.length := by
    rw [List.length_map, hothers]
  -- no two places have the same name, so the member with a name tells what is in its place
  refine List.ext_getElem (hlength.trans hlength'.symm) fun i hi hi' => Option.ext fun v => ?_
  have hplace : i < names.length := hlength ▸ hi
  have hmem := hperm.mem_iff (a := (names[i], v))
  rw [mem_filled_iff hnodup, mem_filled_iff hnodup, List.getElem?_eq_getElem hi,
    List.getElem?_eq_getElem hi', Option.some.injEq, Option.some.injEq] at hmem
  exact hmem

end Row

/-! ### Faithful writing -/

/-- Values with a property are written faithfully: with whole numbers, and so that they are told
apart, whatever order the members of objects are in. -/
structure Faithful {α : Type} (P : α → Prop) (write : α → Option Value) : Prop where
  whole : ∀ x, P x → ∀ v ∈ write x, Json.Whole v
  apart : ∀ x y, P x → P y → (write x).map Value.ordered = (write y).map Value.ordered → x = y

namespace Faithful

variable {α : Type} {P : α → Prop} {encode : α → Value}

theorem text : Faithful (fun _ => True) fun s : String => some (.text s) where
  whole _ _ := Slot.forall_mem_some trivial
  apart _ _ _ _ h := Value.text.inj (Option.some.inj h)

theorem bool : Faithful (fun _ => True) fun b : Bool => some (.bool b) where
  whole _ _ := Slot.forall_mem_some trivial
  apart _ _ _ _ h := Value.bool.inj (Option.some.inj h)

theorem members : Faithful (fun ms => Readable (.object ms)) fun ms => some (.object ms) where
  whole _ h := Slot.forall_mem_some h.2
  apart ms ns hms hns h := by
    rw [Option.map_some, Option.map_some, Json.ordered_eq_of_ordered hms.1,
      Json.ordered_eq_of_ordered hns.1] at h
    exact Value.object.inj (Option.some.inj h)

theorem list (h : Faithful P fun x => some (encode x)) :
    Faithful (fun xs => ∀ x ∈ xs, P x) fun xs : List α => some (.list (xs.map encode)) where
  whole xs hxs := by
    refine Slot.forall_mem_some (Json.wholeItems_iff.mpr (List.forall_mem_map.mpr fun x hx => ?_))
    exact h.whole x (hxs x hx) _ rfl
  apart xs ys hxs hys heq := by
    have hitems := Value.list.inj (Option.some.inj heq)
    rw [Json.orderedItems_eq_map, Json.orderedItems_eq_map] at hitems
    clear heq
    induction xs generalizing ys with
    | nil => exact (List.map_eq_nil_iff.mp (List.map_eq_nil_iff.mp hitems.symm)).symm
    | cons x xs ih =>
      cases ys with
      | nil => cases hitems
      | cons y ys =>
        obtain ⟨hx, hxs⟩ := List.forall_mem_cons.mp hxs
        obtain ⟨hy, hys⟩ := List.forall_mem_cons.mp hys
        obtain ⟨hfirst, hrest⟩ := List.cons.inj hitems
        rw [h.apart x y hx hy (congrArg some hfirst), ih ys hxs hys hrest]

/-- No value is told from every value. -/
theorem optional (h : Faithful P fun x => some (encode x)) :
    Faithful (fun o => ∀ x ∈ o, P x) (Option.map encode) where
  whole o ho v hv := by
    obtain ⟨x, rfl, rfl⟩ := Option.map_eq_some_iff.mp hv
    exact h.whole x (ho x rfl) _ rfl
  apart o p ho hp heq := by
    cases o <;> cases p
    · rfl
    · cases heq
    · cases heq
    · exact congrArg some (h.apart _ _ (ho _ rfl) (hp _ rfl) heq)

/-- **One value may be left out**, as long as no other is. -/
theorem leftOut (h : Faithful P fun x => some (encode x)) {write : α → Option Value} (default : α)
    (hwrite : ∀ x, write x = some (encode x) ∨ write x = none ∧ x = default) :
    Faithful P write where
  whole x hx v hv := by
    rcases hwrite x with heq | ⟨heq, -⟩
    · exact h.whole x hx v (heq ▸ hv)
    · rw [heq] at hv
      cases hv
  apart x y hx hy heq := by
    rcases hwrite x with hwx | ⟨hwx, hx₀⟩ <;> rcases hwrite y with hwy | ⟨hwy, hy₀⟩ <;>
      rw [hwx, hwy] at heq
    · exact h.apart x y hx hy heq
    · cases heq
    · cases heq
    · exact hx₀.trans hy₀.symm

theorem writeString : Faithful (fun _ => True) Field.writeString := by
  refine leftOut text "" fun s => ?_
  by_cases hs : s = ""
  · exact .inr ⟨if_pos hs, hs⟩
  · exact .inl (if_neg hs)

theorem writeList (h : Faithful P fun x => some (encode x)) :
    Faithful (fun xs => ∀ x ∈ xs, P x) (Field.writeList encode) := by
  refine leftOut h.list [] fun xs => ?_
  cases xs with
  | nil => exact .inr ⟨rfl, rfl⟩
  | cons x xs => exact .inl rfl

/-- **Records are written faithfully** if the values of their fields are. -/
theorem row {names : List String} (hnodup : names.Nodup) {values : α → List (Option Value)}
    (hlength : ∀ x, (values x).length = names.length)
    (hwhole : ∀ x, P x → ∀ o ∈ values x, ∀ v ∈ o, Json.Whole v)
    (hapart : ∀ x y, P x → P y → (values x).map (Option.map Value.ordered) =
      (values y).map (Option.map Value.ordered) → x = y) :
    Faithful P fun x => some (Row.encode names (values x)) where
  whole x hx := Slot.forall_mem_some (Row.whole_encode (hwhole x hx))
  apart x y hx hy h :=
    hapart x y hx hy (Row.ordered_encode_inj hnodup (hlength x) (hlength y) (Option.some.inj h))

/-- **Values that are written faithfully have the same text just if they are equal**, and the same
value in key order just if they are. -/
theorem eq_iff (h : Faithful P fun x => some (encode x)) {x y : α} (hx : P x) (hy : P y) :
    (Json.render (encode x) = Json.render (encode y) ↔ x = y) ∧
      ((encode x).ordered = (encode y).ordered ↔ x = y) := by
  have hvalue : (encode x).ordered = (encode y).ordered → x = y := fun heq =>
    h.apart x y hx hy (congrArg some heq)
  refine ⟨⟨fun heq => hvalue ?_, fun heq => heq ▸ rfl⟩, hvalue, fun heq => heq ▸ rfl⟩
  exact Json.ordered_eq_of_render_eq (h.whole x hx _ rfl) (h.whole y hy _ rfl) heq

end Faithful

/-! ### Records -/

/-- The metadata of a result can be read back. -/
def RuleResult.Readable (r : RuleResult) : Prop :=
  ImagePolicy.Readable (.object r.metadata)

theorem RuleResult.faithful : Faithful RuleResult.Readable fun r => some r.encode := by
  have hmetadata : Faithful (fun ms => ImagePolicy.Readable (.object ms)) fun ms : Json.Members =>
      if ms.isEmpty then none else some (.object ms) := by
    refine Faithful.members.leftOut [] fun ms => ?_
    cases ms with
    | nil => exact .inr ⟨rfl, rfl⟩
    | cons m ms => exact .inl rfl
  refine Faithful.row (by decide) (fun _ => rfl) (fun r hr => ?_) ?_
  · simp only [List.forall_mem_cons]
    exact ⟨Faithful.text.whole _ trivial, hmetadata.whole _ hr, nofun⟩
  · intro ⟨message, metadata⟩ ⟨message', metadata'⟩ hr hs hrow
    simp only [List.map_cons, List.map_nil, List.cons.injEq, and_true] at hrow
    obtain rfl := Faithful.text.apart _ _ trivial trivial hrow.1
    obtain rfl := hmetadata.apart _ _ hr hs hrow.2
    rfl

/-- The metadata of all results in a group can be read back. -/
structure CheckGroup.Readable (g : CheckGroup) : Prop where
  successes : ∀ r ∈ g.successes, r.Readable
  warnings : ∀ r ∈ g.warnings, r.Readable
  failures : ∀ r ∈ g.failures, r.Readable

theorem CheckGroup.faithful : Faithful CheckGroup.Readable fun g => some g.encode := by
  have hresults := Faithful.writeList RuleResult.faithful
  refine Faithful.row (by decide) (fun _ => rfl) (fun g hg => ?_) fun g g' hg hg' hrow => ?_
  · simp only [List.forall_mem_cons]
    exact ⟨Faithful.text.whole _ trivial, Faithful.text.whole _ trivial,
      hresults.whole _ hg.successes, hresults.whole _ hg.warnings, hresults.whole _ hg.failures,
      nofun⟩
  · simp only [List.map_cons, List.map_nil, List.cons.injEq, and_true] at hrow
    obtain ⟨hfilename, hnamespace, hsuccesses, hwarnings, hfailures⟩ := hrow
    replace hfilename := Faithful.text.apart _ _ trivial trivial hfilename
    replace hnamespace := Faithful.text.apart _ _ trivial trivial hnamespace
    replace hsuccesses := hresults.apart _ _ hg.successes hg'.successes hsuccesses
    replace hwarnings := hresults.apart _ _ hg.warnings hg'.warnings hwarnings
    replace hfailures := hresults.apart _ _ hg.failures hg'.failures hfailures
    cases g
    cases g'
    simp only at hfilename hnamespace hsuccesses hwarnings hfailures
    simp only [hfilename, hnamespace, hsuccesses, hwarnings, hfailures]

theorem Signature.faithful : Faithful (fun _ => True) fun s => some (Signature.encode s) := by
  have htexts := Faithful.optional Faithful.text
  have hall : ∀ o : Option String, ∀ s ∈ o, True := fun _ _ _ => trivial
  refine Faithful.row (by decide) (fun _ => rfl) (fun s _ => ?_) fun s s' _ _ hrow => ?_
  · simp only [List.forall_mem_cons]
    exact ⟨Faithful.writeString.whole _ trivial, Faithful.text.whole _ trivial,
      htexts.whole _ (hall _), htexts.whole _ (hall _), nofun⟩
  · simp only [List.map_cons, List.map_nil, List.cons.injEq, and_true] at hrow
    obtain ⟨hkeyId, hsignature, hcertificate, hchain⟩ := hrow
    replace hkeyId := Faithful.writeString.apart _ _ trivial trivial hkeyId
    replace hsignature := Faithful.text.apart _ _ trivial trivial hsignature
    replace hcertificate := htexts.apart _ _ (hall _) (hall _) hcertificate
    replace hchain := htexts.apart _ _ (hall _) (hall _) hchain
    cases s
    cases s'
    simp only at hkeyId hsignature hcertificate hchain
    simp only [hkeyId, hsignature, hcertificate, hchain]

/-- The metadata of a stage's message can be read back. -/
def StageStatus.Readable (s : StageStatus) : Prop :=
  ∀ r ∈ s.result, r.Readable

theorem StageStatus.faithful : Faithful StageStatus.Readable fun s => some s.encode := by
  have hresult := Faithful.optional RuleResult.faithful
  refine Faithful.row (by decide) (fun _ => rfl) (fun s hs => ?_) ?_
  · simp only [List.forall_mem_cons]
    exact ⟨Faithful.bool.whole _ trivial, hresult.whole _ hs, nofun⟩
  · intro ⟨passed, result⟩ ⟨passed', result'⟩ hs hs' hrow
    simp only [List.map_cons, List.map_nil, List.cons.injEq, and_true] at hrow
    obtain rfl := Faithful.bool.apart _ _ trivial trivial hrow.1
    obtain rfl := hresult.apart _ _ hs hs' hrow.2
    rfl

theorem Instant.faithful : Faithful Instant.Valid fun i => some (.text i.text) where
  whole _ _ := Slot.forall_mem_some trivial
  apart _ _ hi hj h :=
    render_injective hi hj (String.ofList_injective (Value.text.inj (Option.some.inj h)))

/-- A report that is written without loss: all metadata in it can be read back, and its effective
time exists. -/
structure Report.Admissible (r : Report) : Prop where
  imageAccessible : ∀ s ∈ r.imageAccessible, s.Readable
  imageSignature : ∀ s ∈ r.imageSignature, s.Readable
  attestationSignature : ∀ s ∈ r.attestationSignature, s.Readable
  attestationShape : ∀ s ∈ r.attestationShape, s.Readable
  policyCheck : ∀ g ∈ r.policyCheck, g.Readable
  effectiveTime : ∀ i ∈ r.effectiveTime, i.Valid

/-- **Reports are written faithfully.** -/
theorem Report.faithful : Faithful Report.Admissible fun r => some r.encode := by
  have hstage := Faithful.optional StageStatus.faithful
  have hchecks := Faithful.writeList CheckGroup.faithful
  have hsignatures := Faithful.writeList Signature.faithful
  have htime := Faithful.optional Instant.faithful
  have hall : ∀ ss : List Signature, ∀ s ∈ ss, True := fun _ _ _ => trivial
  refine Faithful.row (by decide) (fun _ => rfl) (fun r hr => ?_) fun r r' hr hr' hrow => ?_
  · simp only [List.forall_mem_cons]
    exact ⟨Faithful.text.whole _ trivial, hstage.whole _ hr.imageAccessible,
      hstage.whole _ hr.imageSignature, hstage.whole _ hr.attestationSignature,
      hstage.whole _ hr.attestationShape, hchecks.whole _ hr.policyCheck,
      hsignatures.whole _ (hall _), htime.whole _ hr.effectiveTime, nofun⟩
  · simp only [List.map_cons, List.map_nil, List.cons.injEq, and_true] at hrow
    obtain ⟨hurl, haccess, hsigned, hattested, hshape, hcheck, hsigs, heffective⟩ := hrow
    replace hurl := Faithful.text.apart _ _ trivial trivial hurl
    replace haccess := hstage.apart _ _ hr.imageAccessible hr'.imageAccessible haccess
    replace hsigned := hstage.apart _ _ hr.imageSignature hr'.imageSignature hsigned
    replace hattested :=
      hstage.apart _ _ hr.attestationSignature hr'.attestationSignature hattested
    replace hshape := hstage.apart _ _ hr.attestationShape hr'.attestationShape hshape
    replace hcheck := hchecks.apart _ _ hr.policyCheck hr'.policyCheck hcheck
    replace hsigs := hsignatures.apart _ _ (hall _) (hall _) hsigs
    replace heffective := htime.apart _ _ hr.effectiveTime hr'.effectiveTime heffective
    cases r
    cases r'
    simp only at hurl haccess hsigned hattested hshape hcheck hsigs heffective
    simp only [hurl, haccess, hsigned, hattested, hshape, hcheck, hsigs, heffective]

/-- **No report is lost in JSON.** Two reports have the same text just if they are equal, and the
same value in key order just if they are equal. -/
theorem reports_lossless {r s : Report} (hr : r.Admissible) (hs : s.Admissible) :
    (Json.render r.encode = Json.render s.encode ↔ r = s) ∧
      (r.encode.ordered = s.encode.ordered ↔ r = s) :=
  Report.faithful.eq_iff hr hs

/-- A stage that failed without a message, in the leap second that ends the year 9999, and one that
failed with an empty message and the least of integers, just after that year. -/
theorem reports_lossless_messages :
    let silent : Report := {
      imageUrl := "registry/app", imageAccessible := some ⟨false, none⟩,
      effectiveTime := some ⟨253402300799, 1000000000⟩ }
    let told : Report := { silent with
      imageAccessible :=
        some ⟨false, some ⟨"", [("limit", .number (.integer (-9223372036854775808)))]⟩⟩
      effectiveTime := some ⟨253402300800, 1⟩ }
    silent.Admissible ∧ told.Admissible ∧ silent ≠ told ∧
      (Json.render silent.encode = Json.render told.encode ↔ silent = told) ∧
      (silent.encode.ordered = told.encode.ordered ↔ silent = told) := by
  intro silent told
  have hunrun : ∀ s ∈ (none : Option StageStatus), s.Readable := fun _ h =>
    absurd h (Option.not_mem_none _)
  have hsilent : silent.Admissible := by
    have hlast : Instant.Valid ⟨253402300799, 1000000000⟩ := .inr (by decide)
    refine ⟨fun _ hstage => ?_, hunrun, hunrun, hunrun, List.forall_mem_nil _, fun _ htime => ?_⟩
    · cases hstage
      exact fun _ h => absurd h (Option.not_mem_none _)
    · cases htime
      exact hlast
  have htold : told.Admissible := by
    have hfirst : Instant.Valid ⟨253402300800, 1⟩ := .inl (by decide)
    have hresult : RuleResult.Readable
        ⟨"", [("limit", .number (.integer (-9223372036854775808)))]⟩ :=
      ⟨by simp [Json.Ordered, Json.OrderedMembers, Json.Ascending],
        by simp [Json.Whole, Json.WholeMembers, Json.Number.Whole, Json.Number.IntegerRange]⟩
    refine ⟨fun _ hstage => ?_, hunrun, hunrun, hunrun, List.forall_mem_nil _, fun _ htime => ?_⟩
    · cases hstage
      intro _ hmessage
      cases hmessage
      exact hresult
    · cases htime
      exact hfirst
  have hne : silent ≠ told := by
    intro h
    cases congrArg Report.imageAccessible h
  exact ⟨hsilent, htold, hne, reports_lossless hsilent htold⟩

/-- An instant in a leap second has its second written as 60, and a stage that never ran is left
out. -/
example : Json.render (Report.encode {
      imageUrl := "registry/app", imageSignature := some ⟨false, none⟩,
      effectiveTime := some ⟨253402300799, 1000000000⟩ }) =
    ("\x7b\"imageUrl\":\"registry/app\",\"imageSignatureCheck\":\x7b\"passed\":false\x7d," ++
      "\"effectiveTime\":\"9999-12-31T23:59:60Z\"\x7d").toList := by decide +kernel

end ImagePolicy
