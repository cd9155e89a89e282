/-
# The times that builds finished

An attestation says that a build finished at an instant if it is SLSA provenance and names the
instant at one place of its statement (`Attestation.BuiltAt`). Anything else there is as good as
nothing: another predicate type, a list on the way, a value that is no string, or a string that is
no point in time.

The attestation time is the latest of these instants. Being the latest is a matter of which instants
there are, so the attestation time does not depend on the order of attestations, on how often they
are listed, or on attestations that name no instant; and for two lists put together it is the
later of theirs (`latest_build`).

Key definitions: `Attestation.BuiltAt`.
Key theorems: `buildFinishedOn_eq_some_iff`, `attestationTime?_congr`, `attestationTime?_append`,
`latest_build`.
-/
import ImagePolicy.Proofs.Attestation.Counting
import ImagePolicy.Proofs.Attestation.Governing
import ImagePolicy.Proofs.Json.Documents
import ImagePolicy.Proofs.Time.TimeForms

namespace ImagePolicy

open Json (Value)

variable {as bs : List Attestation} {i : Instant}

/-! ### What an attestation says -/

/-- An attestation says that its build finished at an instant: it has the predicate type of SLSA
provenance v0.2, and in the metadata of its predicate a string that names the instant. -/
def Attestation.BuiltAt (a : Attestation) (i : Instant) : Prop :=
  ∃ statement predicate metadata text,
    a.statement = .object statement ∧
    statement.lookup "predicateType" = some (.text "https://slsa.dev/provenance/v0.2") ∧
    statement.lookup "predicate" = some (.object predicate) ∧
    predicate.lookup "metadata" = some (.object metadata) ∧
    metadata.lookup "buildFinishedOn" = some (.text text) ∧
    Rfc3339.Names text i

theorem predicateType_eq_some_iff {a : Attestation} {type : String} :
    a.predicateType = some type ↔
      ∃ statement, a.statement = .object statement ∧
        statement.lookup "predicateType" = some (.text type) := by
  rw [Attestation.predicateType, Option.bind_eq_some_iff]
  simp only [Value.get?_eq_some_iff, Value.string?_eq_some_iff]
  constructor
  · rintro ⟨v, ⟨statement, hstatement, hv⟩, rfl⟩
    exact ⟨statement, hstatement, hv⟩
  · rintro ⟨statement, hstatement, hv⟩
    exact ⟨_, ⟨statement, hstatement, hv⟩, rfl⟩

/-- The string at the place for the build time. -/
theorem buildText_eq_some_iff {a : Attestation} {text : String} :
    (a.statement.at? ["predicate", "metadata", "buildFinishedOn"]).bind Value.string? = some text ↔
      ∃ statement predicate metadata, a.statement = .object statement ∧
        statement.lookup "predicate" = some (.object predicate) ∧
        predicate.lookup "metadata" = some (.object metadata) ∧
        metadata.lookup "buildFinishedOn" = some (.text text) := by
  rw [Option.bind_eq_some_iff]
  simp only [Value.at?_cons_eq_some_iff, Value.at?_nil_eq_some_iff, Value.string?_eq_some_iff]
  constructor
  · rintro ⟨v, ⟨statement, _, hstatement, hpredicate, predicate, _, rfl, hmetadata, metadata, _,
      rfl, htext, rfl⟩, rfl⟩
    exact ⟨statement, predicate, metadata, hstatement, hpredicate, hmetadata, htext⟩
  · rintro ⟨statement, predicate, metadata, hstatement, hpredicate, hmetadata, htext⟩
    exact ⟨_, ⟨statement, _, hstatement, hpredicate, predicate, _, rfl, hmetadata, metadata, _, rfl,
      htext, rfl⟩, rfl⟩

theorem toOption_parseString_eq_some_iff {text : String} :
    (Rfc3339.parseString text).toOption = some i ↔ Rfc3339.Names text i := by
  rw [← Rfc3339.parseString_eq_ok_iff]
  cases Rfc3339.parseString text <;> simp [Except.toOption]

/-- **The build time that is read is the one that the attestation says.** -/
theorem buildFinishedOn_eq_some_iff {a : Attestation} :
    a.buildFinishedOn = some i ↔ a.BuiltAt i := by
  unfold Attestation.buildFinishedOn
  constructor
  · intro h
    split at h
    · next htype =>
      split at h
      · next text htext =>
        obtain ⟨statement, hstatement, htype⟩ := predicateType_eq_some_iff.mp htype
        obtain ⟨_, predicate, metadata, hsame, hpredicate, hmetadata, htext⟩ :=
          buildText_eq_some_iff.mp htext
        obtain rfl := Value.object.inj (hstatement.symm.trans hsame)
        exact ⟨statement, predicate, metadata, text, hstatement, htype, hpredicate, hmetadata,
          htext, toOption_parseString_eq_some_iff.mp h⟩
      · cases h
    · cases h
  · rintro ⟨statement, predicate, metadata, text, hstatement, htype, hpredicate, hmetadata, htext,
      hnames⟩
    have htype : a.predicateType = some slsaProvenance :=
      predicateType_eq_some_iff.mpr ⟨statement, hstatement, htype⟩
    have htext := buildText_eq_some_iff.mpr
      ⟨statement, predicate, metadata, hstatement, hpredicate, hmetadata, htext⟩
    rw [if_pos htype, htext]
    exact toOption_parseString_eq_some_iff.mpr hnames

/-! ### The latest of them -/

/-- Attestations that name the same instants have the same attestation time. -/
theorem attestationTime?_congr
    (h : ∀ i, (∃ a ∈ as, a.buildFinishedOn = some i) ↔ ∃ a ∈ bs, a.buildFinishedOn = some i) :
    attestationTime? as = attestationTime? bs := by
  have hlatest : ∀ {xs ys : List Attestation} {i : Instant},
      (∀ i, (∃ a ∈ xs, a.buildFinishedOn = some i) ↔ ∃ a ∈ ys, a.buildFinishedOn = some i) →
      IsLatestBuild xs i → IsLatestBuild ys i := by
    intro xs ys i hsame hi
    refine ⟨(hsame i).mp hi.attained, fun b hb t ht => ?_⟩
    obtain ⟨a, ha, hat⟩ := (hsame t).mpr ⟨b, hb, ht⟩
    exact hi.greatest a ha t hat
  refine Option.ext fun i => ?_
  rw [attestationTime?_eq_some_iff, attestationTime?_eq_some_iff]
  exact ⟨hlatest h, hlatest fun i => (h i).symm⟩

theorem laterOf_eq_merge (a b : Option Instant) :
    laterOf a b = Option.merge (fun i j => if i ≤ j then j else i) a b := by
  cases a <;> cases b <;> rfl

/-- **Of two lists together the time is the later one.** -/
theorem attestationTime?_append (as bs : List Attestation) :
    attestationTime? (as ++ bs) = laterOf (attestationTime? as) (attestationTime? bs) := by
  rw [← foldl_laterOf, attestationTime?, attestationTime?, List.foldl_append]

/-- **The attestation time is the latest build time.** There is none just if no attestation says
when its build finished; otherwise it is said by one of them, and by none is a later one said. It is
the same for the same attestations in another order or listed more often, it stays when attestations
come in that do not say when, and of two lists together it is the later of theirs. -/
theorem latest_build (as bs : List Attestation) :
    (attestationTime? as = none ↔ ¬∃ a ∈ as, ∃ i, a.BuiltAt i) ∧
    (∀ i, attestationTime? as = some i ↔
      (∃ a ∈ as, a.BuiltAt i) ∧ ∀ a ∈ as, ∀ t, a.BuiltAt t → t ≤ i) ∧
    ((∀ a, a ∈ as ↔ a ∈ bs) → attestationTime? as = attestationTime? bs) ∧
    (∀ new, Inserted new as bs → (∀ a ∈ new, ¬∃ i, a.BuiltAt i) →
      attestationTime? as = attestationTime? bs) ∧
    attestationTime? (as ++ bs) =
      Option.merge (fun i j => if i ≤ j then j else i) (attestationTime? as)
        (attestationTime? bs) := by
  refine ⟨?_, fun i => ?_, fun hsame => ?_, fun new hnew hsilent => ?_, ?_⟩
  · rw [attestationTime?_eq_none_iff]
    simp only [Option.eq_none_iff_forall_ne_some, ne_eq, buildFinishedOn_eq_some_iff, not_exists,
      not_and]
  · rw [attestationTime?_eq_some_iff]
    constructor
    · rintro ⟨hattained, hgreatest⟩
      simp only [buildFinishedOn_eq_some_iff] at hattained hgreatest
      exact ⟨hattained, hgreatest⟩
    · rintro ⟨hattained, hgreatest⟩
      simp only [← buildFinishedOn_eq_some_iff] at hattained hgreatest
      exact ⟨hattained, hgreatest⟩
  · refine attestationTime?_congr fun i => ?_
    simp only [hsame]
  · refine attestationTime?_congr fun i => ?_
    have hnone : ∀ a ∈ new, a.buildFinishedOn ≠ some i := fun a ha hi =>
      hsilent a ha ⟨i, buildFinishedOn_eq_some_iff.mp hi⟩
    have hall := hnew.forall_mem_iff fun a => a.buildFinishedOn ≠ some i
    rw [← not_iff_not]
    simp only [not_exists, not_and]
    exact ⟨fun h => hall.mpr ⟨h, hnone⟩, fun h => (hall.mp h).1⟩
  · rw [attestationTime?_append, laterOf_eq_merge]

/-- The attestation of a predicate type that has a text at the place for the build time. -/
def builtOn (type time : String) : Attestation where
  statement := .object [
    ("predicate", .object [("metadata", .object [("buildFinishedOn", .text time)])]),
    ("predicateType", .text type)]

/-- Two builds of which the one with the later local time finished first, and a text of another
predicate type that names a later time. -/
theorem latest_build_offsets :
    let first := builtOn slsaProvenance "2020-01-01T10:00:00+05:00"
    let second := builtOn slsaProvenance "2020-01-01 06:00:00.0Z"
    let silent := builtOn "https://spdx.dev/Document" "2030-01-01T00:00:00Z"
    attestationTime? [first, second] = some ⟨1577858400, 0⟩ ∧ second.BuiltAt ⟨1577858400, 0⟩ ∧
    ((∀ a, a ∈ [first, second] ↔ a ∈ [second, first, second]) ∧
      attestationTime? [first, second] = attestationTime? [second, first, second]) ∧
    (Inserted [silent] [first, second] [first, silent, second] ∧
      (∀ a ∈ [silent], ¬∃ i, a.BuiltAt i) ∧
      attestationTime? [first, second] = attestationTime? [first, silent, second]) := by
  intro first second silent
  have htime : attestationTime? [first, second] = some ⟨1577858400, 0⟩ := by decide +kernel
  have hsecond : second.buildFinishedOn = some ⟨1577858400, 0⟩ := by decide +kernel
  have hnone : silent.buildFinishedOn = none := by decide +kernel
  have hsame : ∀ a, a ∈ [first, second] ↔ a ∈ [second, first, second] := by
    intro a
    simp only [List.mem_cons, List.not_mem_nil, or_false]
    tauto
  have hinserted : Inserted [silent] [first, second] [first, silent, second] :=
    .keep first (.insert silent (.keep second .nil))
  have hsilent : ∀ a ∈ [silent], ¬∃ i, a.BuiltAt i := by
    rintro a ha ⟨i, hi⟩
    obtain rfl := List.mem_singleton.mp ha
    rw [← buildFinishedOn_eq_some_iff, hnone] at hi
    cases hi
  obtain ⟨-, -, hset, -, -⟩ := latest_build [first, second] [second, first, second]
  obtain ⟨-, -, -, hnew, -⟩ := latest_build [first, second] [first, silent, second]
  exact ⟨htime, buildFinishedOn_eq_some_iff.mp hsecond, ⟨hsame, hset hsame⟩, hinserted, hsilent,
    hnew [silent] hinserted hsilent⟩

end ImagePolicy
