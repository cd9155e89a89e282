/-
# The shape of statements

An in-toto statement is an object with a known type, a predicate type, subjects with digests, and
a predicate. The check names the first thing that is wrong, in this order; of several subjects,
the first that has something wrong.

Key definitions: `StatementFault`, `statementFault?`, `partitionByShape`.
-/
import ImagePolicy.Attestation.Record

namespace ImagePolicy

open Json (Value)

/-- What is wrong with a statement. -/
inductive StatementFault where
  | notAnObject
  | unsupportedType (type : String)
  | missingType
  | missingPredicateType
  | missingSubject
  | emptySubject
  | missingDigest (subject : Nat)
  | malformedDigest (subject : Nat)
  | missingPredicate
  deriving DecidableEq, Repr

/-- The wording of a fault. -/
def StatementFault.message : StatementFault → String
  | .notAnObject => "statement is not a JSON object"
  | .unsupportedType t => "unsupported statement type `" ++ t ++ "`"
  | .missingType => "missing `_type`"
  | .missingPredicateType => "missing `predicateType`"
  | .missingSubject => "missing `subject` list"
  | .emptySubject => "`subject` list is empty"
  | .missingDigest i => "subject " ++ toString i ++ " has no `digest`"
  | .malformedDigest i => "subject " ++ toString i ++ " has a malformed `digest`"
  | .missingPredicate => "missing `predicate` object"

/-- The types of in-toto statements. -/
def statementTypes : List String :=
  ["https://in-toto.io/Statement/v0.1", "https://in-toto.io/Statement/v1"]

/-- What is wrong with the type. -/
def typeFault? (statement : Value) : Option StatementFault :=
  match (statement.get? "_type").bind Value.string? with
  | some t => if statementTypes.contains t then none else some (.unsupportedType t)
  | none => some .missingType

/-- What is wrong with the predicate type. -/
def predicateTypeFault? (statement : Value) : Option StatementFault :=
  match (statement.get? "predicateType").bind Value.string? with
  | some t => if t = "" then some .missingPredicateType else none
  | none => some .missingPredicateType

/-- What is wrong with the subject at an index. -/
def subjectFault? (index : Nat) (subject : Value) : Option StatementFault :=
  match (subject.get? "digest").bind Value.members? with
  | none => some (.missingDigest index)
  | some ms =>
    if ms.isEmpty || !ms.all fun m => m.2.isText then some (.malformedDigest index) else none

/-- What is wrong with the first subject that has a fault, counting from an index. -/
def firstSubjectFault? (index : Nat) : List Value → Option StatementFault
  | [] => none
  | s :: ss => (subjectFault? index s).or (firstSubjectFault? (index + 1) ss)

/-- What is wrong with the subjects. -/
def subjectsFault? (statement : Value) : Option StatementFault :=
  match (statement.get? "subject").bind Value.items? with
  | none => some .missingSubject
  | some [] => some .emptySubject
  | some subjects => firstSubjectFault? 0 subjects

/-- What is wrong with the predicate. -/
def predicateFault? (statement : Value) : Option StatementFault :=
  match statement.get? "predicate" with
  | some v => if v.isObject then none else some .missingPredicate
  | none => some .missingPredicate

/-- The first thing that is wrong with a statement. -/
def statementFault? (statement : Value) : Option StatementFault :=
  if statement.isObject then
    (typeFault? statement).or <| (predicateTypeFault? statement).or <|
      (subjectsFault? statement).or (predicateFault? statement)
  else some .notAnObject

/-- What is wrong with an attestation's statement. -/
def Attestation.fault? (a : Attestation) : Option StatementFault :=
  statementFault? a.statement

/-- A fault of the attestation at an index. -/
structure IndexedFault where
  index : Nat
  fault : StatementFault
  deriving DecidableEq, Repr

/-- The wording of an attestation's fault. -/
def IndexedFault.message (f : IndexedFault) : String :=
  "attestation " ++ toString f.index ++ ": " ++ f.fault.message

/-- The attestations without fault and the faults of the others, counting from an index. -/
def partitionFrom (index : Nat) : List Attestation → List Attestation × List IndexedFault
  | [] => ([], [])
  | a :: as =>
    let (valid, faults) := partitionFrom (index + 1) as
    match a.fault? with
    | none => (a :: valid, faults)
    | some fault => (valid, ⟨index, fault⟩ :: faults)

/-- The attestations without fault, and the faults of the others, both in order. -/
def partitionByShape (as : List Attestation) : List Attestation × List IndexedFault :=
  partitionFrom 0 as

end ImagePolicy
