/-
# Attestations

A verified attestation is an in-toto statement, kept as JSON, with the signatures that cover it.
Of a statement the library reads its predicate type, the SHA-256 digests of its subjects, and, if
it is SLSA provenance v0.2, when the build finished.

Key definitions: `Signature`, `Attestation`, `Attestation.subjectDigests`,
`Attestation.buildFinishedOn`, `attestationTime?`.
-/
import ImagePolicy.Record.Row
import ImagePolicy.Time.Rfc3339

namespace ImagePolicy

open Json (Tree Value)

/-- What is told of a signature. -/
structure Signature where
  keyId : String := ""
  signature : String
  certificate : Option String := none
  chain : Option String := none
  deriving DecidableEq, Repr, Inhabited

namespace Signature

/-- The declared fields. -/
def fields : List String := ["keyId", "sig", "certificate", "chain"]

/-- The signature of a tree. -/
def ofTree? (tree : Tree) : Option Signature :=
  match Row.ofTree? fields tree with
  | some [keyId, signature, certificate, chain] =>
    match Field.defaulted? Field.string? "" keyId, Field.required? Field.string? signature,
      Field.optional? Field.string? certificate, Field.optional? Field.string? chain with
    | some keyId, some signature, some certificate, some chain =>
      some ⟨keyId, signature, certificate, chain⟩
    | _, _, _, _ => none
  | _ => none

/-- The value of a signature. -/
def encode (s : Signature) : Value :=
  Row.encode fields
    [Field.writeString s.keyId, some (.text s.signature), s.certificate.map .text,
      s.chain.map .text]

end Signature

/-- A statement and the signatures that cover it. -/
structure Attestation where
  statement : Value
  signatures : List Signature := []
  deriving Inhabited

/-- The predicate type of SLSA provenance v0.2. -/
def slsaProvenance : String := "https://slsa.dev/provenance/v0.2"

namespace Attestation

/-- The declared fields. -/
def fields : List String := ["statement", "signatures"]

/-- The attestation of a tree that so many lists and objects enclose. -/
def ofTree? (above : Nat) (tree : Tree) : Option Attestation :=
  match Row.ofTree? fields tree with
  | some [statement, signatures] =>
    match Field.required? (Field.value? (above + 1)) statement,
      Field.defaulted? (Field.list? Signature.ofTree?) [] signatures with
    | some statement, some signatures => some ⟨statement, signatures⟩
    | _, _ => none
  | _ => none

/-- The attestations of a tree that is a list of them. -/
def listOfTree? (tree : Tree) : Option (List Attestation) :=
  Field.list? (ofTree? 1) tree

/-- The value of an attestation; its signatures are written even when there are none. -/
def encode (a : Attestation) : Value :=
  Row.encode fields [some a.statement, some (.list (a.signatures.map Signature.encode))]

/-- The predicate type, if it is a string. -/
def predicateType (a : Attestation) : Option String :=
  (a.statement.get? "predicateType").bind Value.string?

/-- The SHA-256 digest of a subject. -/
def subjectDigest? (subject : Value) : Option String :=
  (subject.at? ["digest", "sha256"]).bind Value.string?

/-- The SHA-256 digests of the subjects. -/
def subjectDigests (a : Attestation) : List String :=
  match (a.statement.get? "subject").bind Value.items? with
  | some subjects => subjects.filterMap subjectDigest?
  | none => []

/-- Whether a subject has a digest. -/
def covers (digest : String) (a : Attestation) : Bool :=
  a.subjectDigests.contains digest

/-- When the build finished, for SLSA provenance that says so. -/
def buildFinishedOn (a : Attestation) : Option Instant :=
  if a.predicateType = some slsaProvenance then
    match (a.statement.at? ["predicate", "metadata", "buildFinishedOn"]).bind Value.string? with
    | some text => (Rfc3339.parseString text).toOption
    | none => none
  else none

end Attestation

/-- The later of two times that may be missing. -/
def laterOf : Option Instant → Option Instant → Option Instant
  | some a, some b => some (a.max b)
  | some a, none => some a
  | none, b => b

/-- The latest time at which a build finished. -/
def attestationTime? (as : List Attestation) : Option Instant :=
  as.foldl (fun latest a => laterOf latest a.buildFinishedOn) none

/-- The attestations with a subject that has a digest. -/
def matching (digest : String) (as : List Attestation) : List Attestation :=
  as.filter (·.covers digest)

end ImagePolicy
