/-
# Policy contexts

What governs one verification: the policy after the caller's overrides, and the effective time,
the instant at which rules are judged. The time is pinned by the caller, or it stands in for now;
in that case the attestations may replace it once.

Key definitions: `Overrides`, `EffectiveTime`, `PolicyContext`, `PolicyContext.new`,
`PolicyContext.setAttestationTime`.
-/
import ImagePolicy.Policy.Specification
import ImagePolicy.Time.Rfc3339

namespace ImagePolicy

/-- What the caller puts before the policy. -/
structure Overrides where
  publicKey : Option String := none
  rekorUrl : Option String := none
  effectiveTime : Option String := none
  deriving DecidableEq, Repr, Inhabited

/-- The instant at which rules are judged, and where it comes from. -/
inductive EffectiveTime where
  | now (instant : Instant)
  | pinned (instant : Instant)
  | attested (instant : Instant)
  deriving DecidableEq, Repr

namespace EffectiveTime

/-- The instant, wherever it comes from. -/
def instant : EffectiveTime → Instant
  | .now i | .pinned i | .attested i => i

/-- The name of where the time comes from. -/
def source : EffectiveTime → String
  | .now _ => "now"
  | .pinned _ => "pinned"
  | .attested _ => "attested"

/-- The time after the attestations name one: only a stand-in for now is replaced. -/
def attest (t : EffectiveTime) (i : Instant) : EffectiveTime :=
  match t with
  | .now _ => .attested i
  | t => t

end EffectiveTime

/-- What governs one verification. -/
structure PolicyContext where
  publicKey : String
  rekorUrl : Option String
  included : List String
  excluded : List String
  collections : List String
  nonBlocking : List String
  sources : List Json.Value
  effectiveTime : EffectiveTime

/-- Why there is no context. -/
inductive ContextFault where
  | policy (fault : PolicyFault)
  | effectiveTime (value : String) (fault : TimeFault)
  deriving DecidableEq, Repr

/-- The values without repetitions, in the order of their first occurrences. -/
def firstOccurrences (values : List String) : List String :=
  values.foldl (fun seen v => if seen.contains v then seen else seen ++ [v]) []

/-- The override if it has characters, otherwise the value it would override. -/
def overridden (override : Option String) (value : String) : String :=
  match override with
  | some s => if s = "" then value else s
  | none => value

/-- The effective time that the caller asks for at an instant. -/
def requestedTime (clock : Instant) : Option String → Except ContextFault EffectiveTime
  | none => .ok (.now clock)
  | some value =>
    if value = "" then .ok (.now clock)
    else if value = "now" then .ok (.pinned clock)
    else match Rfc3339.parseString value with
      | .ok i => .ok (.pinned i)
      | .error fault => .error (.effectiveTime value fault)

namespace PolicyContext

/-- The context of a policy and overrides at an instant. -/
def new (clock : Instant) (spec : PolicySpec) (o : Overrides) : Except ContextFault PolicyContext :=
  let publicKey := overridden o.publicKey spec.publicKey
  let rekorUrl := overridden o.rekorUrl spec.rekorUrl
  if publicKey = "" then .error (.policy .noPublicKey)
  else match requestedTime clock o.effectiveTime with
    | .error fault => .error fault
    | .ok time =>
      let lists := spec.configuration.getD {}
      let exceptions := spec.exceptions.getD {}
      .ok {
        publicKey
        rekorUrl := if rekorUrl = "" then none else some rekorUrl
        included := firstOccurrences lists.included
        excluded := firstOccurrences lists.excluded
        collections := firstOccurrences lists.collections
        nonBlocking := firstOccurrences exceptions.nonBlocking
        sources := spec.sources
        effectiveTime := time }

/-- The instant at which rules are judged. -/
def instant (c : PolicyContext) : Instant :=
  c.effectiveTime.instant

/-- The context after the attestations name a time. -/
def setAttestationTime (c : PolicyContext) (i : Instant) : PolicyContext :=
  { c with effectiveTime := c.effectiveTime.attest i }

end PolicyContext
end ImagePolicy
