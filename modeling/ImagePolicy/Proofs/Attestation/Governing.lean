/-
# The time that governs a run

Among the attestations that count, those that say when the build finished name a time, and the
latest of them is the attestation time (`attestationTime?_eq_some_iff`). It governs a run whose
context only stands in for now; a context that is fixed already keeps its own time, and one that
is open stays as it is if no attestation names a time (`governs_iff`).

Key definitions: `IsLatestBuild`, `Governs`.
Key theorems: `laterOf_assoc`, `attestationTime?_cons`, `attestationTime?_eq_some_iff`,
`attestationTime?_eq_none_iff`, `governs_iff`.
-/
import ImagePolicy.Attestation.Context
import ImagePolicy.Proofs.Time.Order

namespace ImagePolicy

/-! ### The attestation time -/

theorem laterOf_assoc (a b c : Option Instant) :
    laterOf (laterOf a b) c = laterOf a (laterOf b c) := by
  cases a <;> cases b <;> cases c <;> simp [laterOf, Instant.max_assoc]

theorem laterOf_eq (a b : Option Instant) : laterOf a b = a ∨ laterOf a b = b := by
  cases a with
  | none => exact Or.inr rfl
  | some i =>
    cases b with
    | none => exact Or.inl rfl
    | some j => rcases Instant.max_eq i j with h | h <;> simp [laterOf, h]

theorem le_of_laterOf {a b : Option Instant} {i : Instant} (h : laterOf a b = some i) :
    (∀ t, a = some t → t ≤ i) ∧ ∀ t, b = some t → t ≤ i := by
  cases a <;> cases b <;> simp only [laterOf, Option.some.injEq, reduceCtorEq] at h
  · simp [h, Instant.le_refl]
  · simp [h, Instant.le_refl]
  · simpa [h] using Instant.max_le_iff.mp (h ▸ Instant.le_refl _)

theorem foldl_laterOf (as : List Attestation) (latest : Option Instant) :
    as.foldl (fun latest a => laterOf latest a.buildFinishedOn) latest =
      laterOf latest (attestationTime? as) := by
  unfold attestationTime?
  induction as generalizing latest with
  | nil => cases latest <;> rfl
  | cons a as ih =>
    rw [List.foldl_cons, ih, List.foldl_cons, ih (laterOf none _), laterOf_assoc]
    rfl

theorem attestationTime?_nil : attestationTime? [] = none := rfl

theorem attestationTime?_cons (a : Attestation) (as : List Attestation) :
    attestationTime? (a :: as) = laterOf a.buildFinishedOn (attestationTime? as) :=
  foldl_laterOf as (laterOf none a.buildFinishedOn)

/-- An instant is the latest time at which one of some attestations was built. -/
structure IsLatestBuild (as : List Attestation) (i : Instant) : Prop where
  attained : ∃ a ∈ as, a.buildFinishedOn = some i
  greatest : ∀ a ∈ as, ∀ t, a.buildFinishedOn = some t → t ≤ i

theorem attestationTime?_eq_none_iff {as : List Attestation} :
    attestationTime? as = none ↔ ∀ a ∈ as, a.buildFinishedOn = none := by
  induction as with
  | nil => simp [attestationTime?_nil]
  | cons a as ih =>
    rw [attestationTime?_cons, List.forall_mem_cons, ← ih]
    cases a.buildFinishedOn <;> cases attestationTime? as <;> simp [laterOf]

theorem exists_build_of_time {as : List Attestation} {i : Instant}
    (h : attestationTime? as = some i) : ∃ a ∈ as, a.buildFinishedOn = some i := by
  induction as with
  | nil => simp [attestationTime?_nil] at h
  | cons a as ih =>
    rw [attestationTime?_cons] at h
    rcases laterOf_eq a.buildFinishedOn (attestationTime? as) with he | he
    · exact ⟨a, List.mem_cons_self, he ▸ h⟩
    · obtain ⟨b, hb, hbi⟩ := ih (he ▸ h)
      exact ⟨b, List.mem_cons_of_mem _ hb, hbi⟩

theorem build_le_of_time {as : List Attestation} {i : Instant} (h : attestationTime? as = some i)
    {a : Attestation} (ha : a ∈ as) {t : Instant} (ht : a.buildFinishedOn = some t) : t ≤ i := by
  induction as generalizing i with
  | nil => cases ha
  | cons b as ih =>
    rw [attestationTime?_cons] at h
    obtain ⟨hfirst, hrest⟩ := le_of_laterOf h
    rcases List.mem_cons.mp ha with rfl | ha
    · exact hfirst t ht
    · cases hr : attestationTime? as with
      | none => rw [attestationTime?_eq_none_iff.mp hr a ha] at ht; cases ht
      | some j => exact Instant.le_trans (ih hr ha) (hrest j hr)

theorem isLatestBuild_of_time {as : List Attestation} {i : Instant}
    (h : attestationTime? as = some i) : IsLatestBuild as i :=
  ⟨exists_build_of_time h, fun _ ha _ ht => build_le_of_time h ha ht⟩

/-- **The attestation time is the latest build.** -/
theorem attestationTime?_eq_some_iff {as : List Attestation} {i : Instant} :
    attestationTime? as = some i ↔ IsLatestBuild as i := by
  refine ⟨isLatestBuild_of_time, fun h => ?_⟩
  obtain ⟨a, ha, hb⟩ := h.attained
  cases ht : attestationTime? as with
  | none => rw [attestationTime?_eq_none_iff.mp ht a ha] at hb; cases hb
  | some j =>
    have hj := isLatestBuild_of_time ht
    obtain ⟨b, hbm, hbj⟩ := hj.attained
    rw [Instant.le_antisymm (hj.greatest a ha i hb) (h.greatest b hbm j hbj)]

/-! ### The governing time -/

/-- The instant that governs a run with a context and the attestations that count: the context's
own if that is fixed, otherwise the latest build, and the stand-in for now if none is known. -/
inductive Governs (c : PolicyContext) (as : List Attestation) : Instant → Prop
  | pinned {i : Instant} : c.effectiveTime = .pinned i → Governs c as i
  | attested {i : Instant} : c.effectiveTime = .attested i → Governs c as i
  | built {i now : Instant} : c.effectiveTime = .now now → IsLatestBuild as i → Governs c as i
  | standIn {now : Instant} : c.effectiveTime = .now now →
      (∀ a ∈ as, a.buildFinishedOn = none) → Governs c as now

theorem attested_instant (c : PolicyContext) (as : List Attestation) :
    (c.attested as).instant = match c.effectiveTime with
      | .now now => (attestationTime? as).getD now
      | .pinned i | .attested i => i := by
  unfold PolicyContext.attested PolicyContext.instant
  cases ht : attestationTime? as <;> cases he : c.effectiveTime <;>
    simp [PolicyContext.setAttestationTime, EffectiveTime.attest, EffectiveTime.instant, he]

/-- **One instant governs, and it is the one that the context is left with.** -/
theorem governs_iff {c : PolicyContext} {as : List Attestation} {i : Instant} :
    Governs c as i ↔ (c.attested as).instant = i := by
  rw [attested_instant]
  constructor
  · rintro (h | h | ⟨h, hb⟩ | ⟨h, hn⟩)
    · rw [h]
    · rw [h]
    · rw [h, attestationTime?_eq_some_iff.mpr hb]
      rfl
    · rw [h, attestationTime?_eq_none_iff.mpr hn]
      rfl
  · intro h
    cases he : c.effectiveTime with
    | pinned t => rw [he] at h; exact h ▸ .pinned he
    | attested t => rw [he] at h; exact h ▸ .attested he
    | now t =>
      rw [he] at h
      cases ht : attestationTime? as with
      | none =>
        rw [ht] at h
        exact h ▸ .standIn he (attestationTime?_eq_none_iff.mp ht)
      | some m =>
        rw [ht] at h
        exact h ▸ .built he (attestationTime?_eq_some_iff.mp ht)

/-- Attestations change nothing of a context but its time. -/
theorem attested_eq (c : PolicyContext) (as : List Attestation) :
    c.attested as = { c with effectiveTime := (c.attested as).effectiveTime } := by
  unfold PolicyContext.attested
  cases attestationTime? as <;> rfl

end ImagePolicy
