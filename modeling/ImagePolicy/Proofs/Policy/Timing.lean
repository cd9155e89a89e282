/-
# How the time of a context is fixed

A context starts with a time that the caller has pinned, or with one that stands in for now. Only a
stand-in can be replaced, and what replaces it is no stand-in any more: so of all the times that
attestations name one after the other the first counts, if any does, and a pinned time stays for
ever. Nothing else of a context is touched.

Key definitions: `PolicyContext.FixedOnce`, `PolicyContext.ofSpec`.
Key theorems: `EffectiveTime.attest_attest`, `EffectiveTime.foldl_attest`,
`PolicyContext.fixedOnce`, `PolicyContext.new_eq`, `PolicyContext.eq_ofSpec_of_new`,
`PolicyContext.origin_of_new`.
-/
import ImagePolicy.Policy.Context

namespace ImagePolicy
namespace EffectiveTime

/-- A time that was named leaves nothing for a second one to replace. -/
theorem attest_attest (t : EffectiveTime) (i j : Instant) :
    (t.attest i).attest j = t.attest i := by
  cases t <;> rfl

theorem foldl_attest_of_attested (t : EffectiveTime) (i : Instant) (js : List Instant) :
    js.foldl attest (t.attest i) = t.attest i := by
  induction js with
  | nil => rfl
  | cons j js ih => rw [List.foldl_cons, attest_attest, ih]

/-- **Of times that are named one after the other the first counts.** -/
theorem foldl_attest (t : EffectiveTime) (i : Instant) (js : List Instant) :
    (i :: js).foldl attest t = t.attest i :=
  foldl_attest_of_attested t i js

theorem foldl_attest_pinned (i : Instant) : ∀ js : List Instant,
    js.foldl attest (.pinned i) = .pinned i
  | [] => rfl
  | j :: js => foldl_attest (.pinned i) j js

end EffectiveTime

namespace PolicyContext

/-- Nothing but its time changes of a context to which times are named. -/
theorem foldl_setAttestationTime (c : PolicyContext) (js : List Instant) :
    js.foldl setAttestationTime c =
      { c with effectiveTime := js.foldl EffectiveTime.attest c.effectiveTime } := by
  induction js generalizing c with
  | nil => rfl
  | cons j js ih =>
    rw [List.foldl_cons, ih]
    rfl

/-- What becomes of a context to which times are named one after the other. -/
structure FixedOnce (c : PolicyContext) (js : List Instant) (c' : PolicyContext) : Prop where
  /-- A pinned time stays. -/
  pinned : ∀ i, c.effectiveTime = .pinned i → c'.effectiveTime = .pinned i
  /-- A stand-in stays until a time is named, and from then on that time does. -/
  standIn : ∀ now, c.effectiveTime = .now now → c'.effectiveTime =
    match js with
    | [] => .now now
    | j :: _ => .attested j
  /-- Everything else is as it was. -/
  rest : c' = { c with effectiveTime := c'.effectiveTime }

/-- **The time of a context is fixed once.** -/
theorem fixedOnce (c : PolicyContext) (js : List Instant) :
    FixedOnce c js (js.foldl setAttestationTime c) := by
  rw [foldl_setAttestationTime]
  refine ⟨fun i h => ?_, fun now h => ?_, rfl⟩
  · rw [h]
    exact EffectiveTime.foldl_attest_pinned i js
  · rw [h]
    cases js with
    | nil => rfl
    | cons j js => exact EffectiveTime.foldl_attest (.now now) j js

/-! ### New contexts -/

theorem requestedTime_of_empty (clock : Instant) {value : Option String}
    (h : value.getD "" = "") : requestedTime clock value = .ok (.now clock) := by
  cases value with
  | none => rfl
  | some value => exact if_pos h

theorem requestedTime_some (clock : Instant) {value : String} (hempty : value ≠ "") :
    requestedTime clock (some value) =
      if value = "now" then .ok (.pinned clock)
      else match Rfc3339.parseString value with
        | .ok i => .ok (.pinned i)
        | .error fault => .error (.effectiveTime value fault) :=
  if_neg hempty

/-- A time that the caller asks for is pinned, if it is not empty. -/
theorem pinned_of_requestedTime {clock : Instant} {value : Option String} {t : EffectiveTime}
    (hvalue : value.getD "" ≠ "") (h : requestedTime clock value = .ok t) :
    ∃ i, t = .pinned i := by
  obtain _ | value := value
  · exact absurd rfl hvalue
  · have hne : value ≠ "" := hvalue
    rw [requestedTime_some clock hne] at h
    split at h
    · cases h
      exact ⟨clock, rfl⟩
    · split at h <;> cases h
      exact ⟨_, rfl⟩

/-- The context of a policy and overrides with a time. -/
def ofSpec (spec : PolicySpec) (o : Overrides) (time : EffectiveTime) : PolicyContext where
  publicKey := overridden o.publicKey spec.publicKey
  rekorUrl :=
    if overridden o.rekorUrl spec.rekorUrl = "" then none
    else some (overridden o.rekorUrl spec.rekorUrl)
  included := firstOccurrences (spec.configuration.getD {}).included
  excluded := firstOccurrences (spec.configuration.getD {}).excluded
  collections := firstOccurrences (spec.configuration.getD {}).collections
  nonBlocking := firstOccurrences (spec.exceptions.getD {}).nonBlocking
  sources := spec.sources
  effectiveTime := time

/-- There is a context if there is a key, and if there is the time that is asked for. -/
theorem new_eq (clock : Instant) (spec : PolicySpec) (o : Overrides) : new clock spec o =
    if overridden o.publicKey spec.publicKey = "" then .error (.policy .noPublicKey)
    else (requestedTime clock o.effectiveTime).map (ofSpec spec o) := by
  unfold new
  cases requestedTime clock o.effectiveTime <;> rfl

/-- A new context is that of its policy, overrides and time. -/
theorem eq_ofSpec_of_new {clock : Instant} {spec : PolicySpec} {o : Overrides} {c : PolicyContext}
    (h : new clock spec o = .ok c) :
    ∃ time, requestedTime clock o.effectiveTime = .ok time ∧ c = ofSpec spec o time := by
  rw [new_eq] at h
  split at h
  · cases h
  · cases htime : requestedTime clock o.effectiveTime with
    | error fault =>
      rw [htime] at h
      cases h
    | ok time =>
      rw [htime] at h
      exact ⟨time, rfl, (Except.ok.inj h).symm⟩

/-- **A new context has the time that the caller asks for**, pinned or as a stand-in. -/
theorem origin_of_new {clock : Instant} {spec : PolicySpec} {o : Overrides} {c : PolicyContext}
    (h : new clock spec o = .ok c) :
    (o.effectiveTime.getD "" = "" → c.effectiveTime = .now clock) ∧
      (o.effectiveTime.getD "" ≠ "" → ∃ i, c.effectiveTime = .pinned i) := by
  obtain ⟨time, htime, rfl⟩ := eq_ofSpec_of_new h
  refine ⟨fun hempty => ?_, fun hvalue => pinned_of_requestedTime hvalue htime⟩
  rw [requestedTime_of_empty clock hempty] at htime
  exact (Except.ok.inj htime).symm

end PolicyContext
end ImagePolicy
