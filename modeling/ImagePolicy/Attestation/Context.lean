/-
# The context that attestations leave

Attestations that name a time fix the effective time of a context, if it stands in for now.

Key definitions: `PolicyContext.attested`.
-/
import ImagePolicy.Attestation.Record
import ImagePolicy.Policy.Context

namespace ImagePolicy

/-- The context after some attestations. -/
def PolicyContext.attested (c : PolicyContext) (as : List Attestation) : PolicyContext :=
  match attestationTime? as with
  | some time => c.setAttestationTime time
  | none => c

end ImagePolicy
