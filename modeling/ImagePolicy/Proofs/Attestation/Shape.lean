/-
# What a statement has to be

A statement is well-formed if it is an object with one of the known types, a predicate type,
subjects that each have digests, and a predicate (`Statement.WellFormed`). If it is not, the first
of these that is missing is told, and of subjects the first that is at fault
(`Statement.Complaint`): what is told depends on the conditions in front being met. The check is
a chain of such tests, so each test gets its own lemma, and the chain is read off these
(`statementFault?_eq_none_iff`, `complaint_iff`).

Attestations are sorted out by the shape of their statements. Those that are well-formed stay in
their order, and each of the others is told of in one line with its place in the list
(`SortedOut`, `sorting_exact`).

Key definitions: `Statement.WellFormed`, `Statement.Complaint`, `SortedOut`.
Key theorems: `firstSubjectFault?_eq_some_iff`, `statementFault?_eq_none_iff`, `complaint_iff`,
`mem_faults_iff`, `sorting_exact`.
-/
import Mathlib.Data.List.Forall2
import ImagePolicy.Proofs.Attestation.Counting
import ImagePolicy.Proofs.Json.Documents

namespace ImagePolicy

open Json (Value Members)

/-! ### The conditions -/

namespace Statement

/-- A statement has one of the known types. -/
def Typed (statement : Members) : Prop :=
  statement.lookup "_type" = some (.text "https://in-toto.io/Statement/v0.1") ∨
    statement.lookup "_type" = some (.text "https://in-toto.io/Statement/v1")

/-- A statement has a predicate type with characters. -/
def PredicateTyped (statement : Members) : Prop :=
  ∃ type, type ≠ "" ∧ statement.lookup "predicateType" = some (.text type)

/-- A subject is an object that holds digests, which are an object too. -/
def HasDigests (subject : Value) (digests : Members) : Prop :=
  ∃ fields, subject = .object fields ∧ fields.lookup "digest" = some (.object digests)

/-- There are digests and all of them are strings. -/
def Filled (digests : Members) : Prop :=
  digests ≠ [] ∧ ∀ m ∈ digests, ∃ text, m.2 = .text text

/-- A subject is identified by digests. -/
def Digested (subject : Value) : Prop :=
  ∃ digests, HasDigests subject digests ∧ Filled digests

/-- A statement has subjects, and each is identified by digests. -/
def Subjected (statement : Members) : Prop :=
  ∃ subjects, statement.lookup "subject" = some (.list subjects) ∧ subjects ≠ [] ∧
    ∀ s ∈ subjects, Digested s

/-- A statement has a predicate, which is an object. -/
def Predicated (statement : Members) : Prop :=
  ∃ predicate, statement.lookup "predicate" = some (.object predicate)

/-- A value is a statement as it has to be. -/
def WellFormed (value : Value) : Prop :=
  ∃ statement, value = .object statement ∧ Typed statement ∧ PredicateTyped statement ∧
    Subjected statement ∧ Predicated statement

/-- What is told of a value that is no such statement: the first condition that is not met. -/
inductive Complaint (value : Value) : String → Prop
  | notAnObject : (∀ statement, value ≠ .object statement) →
      Complaint value "statement is not a JSON object"
  | missingType {statement : Members} : value = .object statement →
      (∀ type, statement.lookup "_type" ≠ some (.text type)) →
      Complaint value "missing `_type`"
  | unsupportedType {statement : Members} {type : String} : value = .object statement →
      statement.lookup "_type" = some (.text type) → ¬Typed statement →
      Complaint value ("unsupported statement type `" ++ type ++ "`")
  | missingPredicateType {statement : Members} : value = .object statement →
      Typed statement → ¬PredicateTyped statement →
      Complaint value "missing `predicateType`"
  | missingSubject {statement : Members} : value = .object statement →
      Typed statement → PredicateTyped statement →
      (∀ subjects, statement.lookup "subject" ≠ some (.list subjects)) →
      Complaint value "missing `subject` list"
  | emptySubject {statement : Members} : value = .object statement →
      Typed statement → PredicateTyped statement →
      statement.lookup "subject" = some (.list []) →
      Complaint value "`subject` list is empty"
  | missingDigest {statement : Members} {before after : List Value} {s : Value} :
      value = .object statement → Typed statement → PredicateTyped statement →
      statement.lookup "subject" = some (.list (before ++ s :: after)) →
      (∀ x ∈ before, Digested x) → (∀ digests, ¬HasDigests s digests) →
      Complaint value ("subject " ++ toString before.length ++ " has no `digest`")
  | malformedDigest {statement : Members} {before after : List Value} {s : Value}
      {digests : Members} :
      value = .object statement → Typed statement → PredicateTyped statement →
      statement.lookup "subject" = some (.list (before ++ s :: after)) →
      (∀ x ∈ before, Digested x) → HasDigests s digests → ¬Filled digests →
      Complaint value ("subject " ++ toString before.length ++ " has a malformed `digest`")
  | missingPredicate {statement : Members} : value = .object statement →
      Typed statement → PredicateTyped statement → Subjected statement →
      ¬Predicated statement →
      Complaint value "missing `predicate` object"

end Statement

open Statement

variable {statement digests : Members} {value s : Value} {fault : StatementFault} {index : Nat}

/-! ### The tests

Each test comes to nothing where its condition is met, and otherwise to the fault that is told. -/

theorem text_get? {key text : String} (h : statement.lookup key = some (.text text)) :
    ((Value.object statement).get? key).bind Value.string? = some text := by
  rw [Value.get?, h]
  rfl

theorem no_text_get? {key : String} (h : ∀ text, statement.lookup key ≠ some (.text text)) :
    ((Value.object statement).get? key).bind Value.string? = none := by
  rw [Value.get?, Option.bind_eq_none_iff]
  intro v hv
  cases v with
  | text text => exact absurd hv (h text)
  | _ => rfl

theorem typed_iff {type : String} (h : statement.lookup "_type" = some (.text type)) :
    Typed statement ↔ statementTypes.contains type = true := by
  simp [Typed, h, statementTypes]

theorem typeFault?_of_typed (h : Typed statement) : typeFault? (.object statement) = none := by
  obtain ⟨type, htype⟩ : ∃ type, statement.lookup "_type" = some (.text type) := by
    rcases h with h | h
    · exact ⟨_, h⟩
    · exact ⟨_, h⟩
  have hknown := (typed_iff htype).mp h
  simp only [typeFault?, text_get? htype, if_pos hknown]

theorem typeFault?_of_unsupported {type : String}
    (htype : statement.lookup "_type" = some (.text type)) (h : ¬Typed statement) :
    typeFault? (.object statement) = some (.unsupportedType type) := by
  have hunknown : ¬statementTypes.contains type = true := fun hknown =>
    h ((typed_iff htype).mpr hknown)
  simp only [typeFault?, text_get? htype, if_neg hunknown]

theorem typeFault?_of_missing (h : ∀ type, statement.lookup "_type" ≠ some (.text type)) :
    typeFault? (.object statement) = some .missingType := by
  simp only [typeFault?, no_text_get? h]

theorem predicateTypeFault?_of_typed (h : PredicateTyped statement) :
    predicateTypeFault? (.object statement) = none := by
  obtain ⟨type, hne, htype⟩ := h
  simp only [predicateTypeFault?, text_get? htype, if_neg hne]

theorem predicateTypeFault?_of_missing (h : ¬PredicateTyped statement) :
    predicateTypeFault? (.object statement) = some .missingPredicateType := by
  by_cases htext : ∃ type, statement.lookup "predicateType" = some (.text type)
  · obtain ⟨type, htype⟩ := htext
    have hempty : type = "" := by
      by_contra hne
      exact h ⟨type, hne, htype⟩
    simp only [predicateTypeFault?, text_get? htype, if_pos hempty]
  · simp only [predicateTypeFault?, no_text_get? (not_exists.mp htext)]

theorem hasDigests_iff :
    HasDigests s digests ↔ (s.get? "digest").bind Value.members? = some digests := by
  rw [Option.bind_eq_some_iff]
  simp only [Value.get?_eq_some_iff, Value.members?_eq_some_iff]
  constructor
  · rintro ⟨fields, rfl, h⟩
    exact ⟨_, ⟨fields, rfl, h⟩, rfl⟩
  · rintro ⟨_, ⟨fields, rfl, h⟩, rfl⟩
    exact ⟨fields, rfl, h⟩

theorem filled_iff :
    Filled digests ↔ ¬(digests.isEmpty || !digests.all fun m => m.2.isText) = true := by
  simp only [Filled, Bool.or_eq_true, List.isEmpty_iff, Bool.not_eq_true', not_or,
    Bool.not_eq_false, List.all_eq_true, Value.isText_iff, ne_eq]

theorem subjectFault?_of_digested (h : Digested s) : subjectFault? index s = none := by
  obtain ⟨digests, hdigests, hfilled⟩ := h
  simp only [subjectFault?, hasDigests_iff.mp hdigests, if_neg (filled_iff.mp hfilled)]

theorem subjectFault?_of_malformed (hdigests : HasDigests s digests) (h : ¬Filled digests) :
    subjectFault? index s = some (.malformedDigest index) := by
  rw [filled_iff, not_not] at h
  simp only [subjectFault?, hasDigests_iff.mp hdigests, if_pos h]

theorem subjectFault?_of_missing (h : ∀ digests, ¬HasDigests s digests) :
    subjectFault? index s = some (.missingDigest index) := by
  have hnone : (s.get? "digest").bind Value.members? = none :=
    Option.eq_none_iff_forall_ne_some.mpr fun digests hdigests =>
      h digests (hasDigests_iff.mpr hdigests)
  simp only [subjectFault?, hnone]

theorem firstSubjectFault?_of_digested {subjects : List Value} (h : ∀ s ∈ subjects, Digested s) :
    firstSubjectFault? index subjects = none := by
  induction subjects generalizing index with
  | nil => rfl
  | cons s subjects ih =>
    obtain ⟨hs, hsubjects⟩ := List.forall_mem_cons.mp h
    rw [firstSubjectFault?, subjectFault?_of_digested hs, Option.none_or, ih hsubjects]

/-- The first subject with a fault is told by its place. -/
theorem firstSubjectFault?_append {before : List Value} (after : List Value)
    (hbefore : ∀ x ∈ before, Digested x) (hs : ∀ i, subjectFault? i s ≠ none) :
    firstSubjectFault? index (before ++ s :: after) = subjectFault? (index + before.length) s := by
  induction before generalizing index with
  | nil => exact Option.or_of_isSome (Option.isSome_iff_ne_none.mpr (hs index))
  | cons x before ih =>
    obtain ⟨hx, hbefore⟩ := List.forall_mem_cons.mp hbefore
    rw [List.cons_append, firstSubjectFault?, subjectFault?_of_digested hx, Option.none_or,
      ih hbefore, List.length_cons, Nat.add_assoc, Nat.add_comm 1]

theorem subjectsFault?_of_subjects {subjects : List Value}
    (h : statement.lookup "subject" = some (.list subjects)) (hne : subjects ≠ []) :
    subjectsFault? (.object statement) = firstSubjectFault? 0 subjects := by
  cases subjects with
  | nil => exact absurd rfl hne
  | cons s subjects => simp only [subjectsFault?, Value.get?, h, Option.bind_some, Value.items?]

theorem subjectsFault?_of_subjected (h : Subjected statement) :
    subjectsFault? (.object statement) = none := by
  obtain ⟨subjects, hsubjects, hne, hdigested⟩ := h
  rw [subjectsFault?_of_subjects hsubjects hne, firstSubjectFault?_of_digested hdigested]

theorem subjectsFault?_of_empty (h : statement.lookup "subject" = some (.list [])) :
    subjectsFault? (.object statement) = some .emptySubject := by
  simp only [subjectsFault?, Value.get?, h, Option.bind_some, Value.items?]

theorem subjectsFault?_of_missing
    (h : ∀ subjects, statement.lookup "subject" ≠ some (.list subjects)) :
    subjectsFault? (.object statement) = some .missingSubject := by
  have hnone : ((Value.object statement).get? "subject").bind Value.items? = none := by
    refine Option.eq_none_iff_forall_ne_some.mpr fun subjects hsubjects => ?_
    obtain ⟨v, hv, hitems⟩ := Option.bind_eq_some_iff.mp hsubjects
    rw [Value.items?_eq_some_iff.mp hitems] at hv
    exact h subjects hv
  simp only [subjectsFault?, hnone]

theorem predicateFault?_of_predicated (h : Predicated statement) :
    predicateFault? (.object statement) = none := by
  obtain ⟨predicate, hpredicate⟩ := h
  simp only [predicateFault?, Value.get?, hpredicate]
  rfl

theorem predicateFault?_of_missing (h : ¬Predicated statement) :
    predicateFault? (.object statement) = some .missingPredicate := by
  simp only [predicateFault?, Value.get?]
  split
  · next v hv =>
    have hobject : ¬v.isObject = true := by
      rw [Value.isObject_iff]
      rintro ⟨predicate, rfl⟩
      exact h ⟨predicate, hv⟩
    rw [if_neg hobject]
  · rfl

/-! ### The check -/

theorem statementFault?_object (statement : Members) : statementFault? (.object statement) =
    (typeFault? (.object statement)).or ((predicateTypeFault? (.object statement)).or
      ((subjectsFault? (.object statement)).or (predicateFault? (.object statement)))) :=
  rfl

/-- Where both types are there, the subjects and the predicate are left to check. -/
theorem statementFault?_of_types (htyped : Typed statement)
    (hpredicateTyped : PredicateTyped statement) : statementFault? (.object statement) =
      (subjectsFault? (.object statement)).or (predicateFault? (.object statement)) := by
  rw [statementFault?_object, typeFault?_of_typed htyped,
    predicateTypeFault?_of_typed hpredicateTyped, Option.none_or, Option.none_or]

/-- A subject with a fault is told, if those in front of it have none. -/
theorem statementFault?_of_subject {before after : List Value} (htyped : Typed statement)
    (hpredicateTyped : PredicateTyped statement)
    (hsubjects : statement.lookup "subject" = some (.list (before ++ s :: after)))
    (hbefore : ∀ x ∈ before, Digested x) (hs : ∀ i, subjectFault? i s ≠ none) :
    statementFault? (.object statement) = subjectFault? before.length s := by
  have hne : before ++ s :: after ≠ [] :=
    List.append_ne_nil_of_right_ne_nil _ (List.cons_ne_nil _ _)
  have hfirst : subjectsFault? (.object statement) = subjectFault? before.length s := by
    rw [subjectsFault?_of_subjects hsubjects hne, firstSubjectFault?_append after hbefore hs,
      Nat.zero_add]
  rw [statementFault?_of_types htyped hpredicateTyped, hfirst]
  exact Option.or_of_isSome (Option.isSome_iff_ne_none.mpr (hs _))

theorem statementFault?_of_wellFormed (h : WellFormed value) : statementFault? value = none := by
  obtain ⟨statement, rfl, htyped, hpredicateTyped, hsubjected, hpredicated⟩ := h
  rw [statementFault?_of_types htyped hpredicateTyped, subjectsFault?_of_subjected hsubjected,
    predicateFault?_of_predicated hpredicated, Option.none_or]

/-- What is told of a value is the wording of its fault. -/
theorem exists_fault_of_complaint {message : String} (h : Complaint value message) :
    ∃ fault, statementFault? value = some fault ∧ fault.message = message := by
  cases h with
  | notAnObject h =>
    have hobject : ¬value.isObject = true := by
      rw [Value.isObject_iff]
      rintro ⟨statement, rfl⟩
      exact h statement rfl
    exact ⟨.notAnObject, if_neg hobject, rfl⟩
  | missingType hv h =>
    refine ⟨.missingType, ?_, rfl⟩
    rw [hv, statementFault?_object, typeFault?_of_missing h, Option.some_or]
  | unsupportedType hv htype h =>
    refine ⟨.unsupportedType _, ?_, rfl⟩
    rw [hv, statementFault?_object, typeFault?_of_unsupported htype h, Option.some_or]
  | missingPredicateType hv htyped h =>
    refine ⟨.missingPredicateType, ?_, rfl⟩
    rw [hv, statementFault?_object, typeFault?_of_typed htyped, predicateTypeFault?_of_missing h,
      Option.none_or, Option.some_or]
  | missingSubject hv htyped hpredicateTyped h =>
    refine ⟨.missingSubject, ?_, rfl⟩
    rw [hv, statementFault?_of_types htyped hpredicateTyped, subjectsFault?_of_missing h,
      Option.some_or]
  | emptySubject hv htyped hpredicateTyped h =>
    refine ⟨.emptySubject, ?_, rfl⟩
    rw [hv, statementFault?_of_types htyped hpredicateTyped, subjectsFault?_of_empty h,
      Option.some_or]
  | missingDigest hv htyped hpredicateTyped hsubjects hbefore h =>
    refine ⟨.missingDigest _, ?_, rfl⟩
    have hs : ∀ i, subjectFault? i _ = some (.missingDigest i) := fun i =>
      subjectFault?_of_missing h
    rw [hv, statementFault?_of_subject htyped hpredicateTyped hsubjects hbefore (by simp [hs]), hs]
  | malformedDigest hv htyped hpredicateTyped hsubjects hbefore hdigests h =>
    refine ⟨.malformedDigest _, ?_, rfl⟩
    have hs : ∀ i, subjectFault? i _ = some (.malformedDigest i) := fun i =>
      subjectFault?_of_malformed hdigests h
    rw [hv, statementFault?_of_subject htyped hpredicateTyped hsubjects hbefore (by simp [hs]), hs]
  | missingPredicate hv htyped hpredicateTyped hsubjected h =>
    refine ⟨.missingPredicate, ?_, rfl⟩
    rw [hv, statementFault?_of_types htyped hpredicateTyped, subjectsFault?_of_subjected hsubjected,
      predicateFault?_of_missing h, Option.none_or]

/-- Of subjects that are not all identified by digests there is a first one that is not. -/
theorem exists_first_undigested {subjects : List Value} (h : ¬∀ s ∈ subjects, Digested s) :
    ∃ before s after, subjects = before ++ s :: after ∧ (∀ x ∈ before, Digested x) ∧
      ¬Digested s := by
  induction subjects with
  | nil => exact absurd (List.forall_mem_nil _) h
  | cons s subjects ih =>
    by_cases hs : Digested s
    · have hrest : ¬∀ s ∈ subjects, Digested s := fun hall =>
        h (List.forall_mem_cons.mpr ⟨hs, hall⟩)
      obtain ⟨before, x, after, rfl, hbefore, hx⟩ := ih hrest
      exact ⟨s :: before, x, after, rfl, List.forall_mem_cons.mpr ⟨hs, hbefore⟩, hx⟩
    · exact ⟨[], s, subjects, rfl, List.forall_mem_nil _, hs⟩

/-- **A value is a well-formed statement, or there is something to tell.** -/
theorem wellFormed_or_complaint (value : Value) :
    WellFormed value ∨ ∃ message, Complaint value message := by
  by_cases hobject : ∃ statement, value = .object statement
  · obtain ⟨statement, hv⟩ := hobject
    by_cases htyped : Typed statement
    · by_cases hpredicateTyped : PredicateTyped statement
      · by_cases hsubjects : ∃ subjects, statement.lookup "subject" = some (.list subjects)
        · obtain ⟨subjects, hsubjects⟩ := hsubjects
          by_cases hempty : subjects = []
          · subst hempty
            exact .inr ⟨_, .emptySubject hv htyped hpredicateTyped hsubjects⟩
          · by_cases hdigested : ∀ s ∈ subjects, Digested s
            · by_cases hpredicated : Predicated statement
              · exact .inl ⟨statement, hv, htyped, hpredicateTyped,
                  ⟨subjects, hsubjects, hempty, hdigested⟩, hpredicated⟩
              · exact .inr ⟨_, .missingPredicate hv htyped hpredicateTyped
                  ⟨subjects, hsubjects, hempty, hdigested⟩ hpredicated⟩
            · obtain ⟨before, s, after, rfl, hbefore, hs⟩ := exists_first_undigested hdigested
              by_cases hdigests : ∃ digests, HasDigests s digests
              · obtain ⟨digests, hdigests⟩ := hdigests
                have hfilled : ¬Filled digests := fun hfilled => hs ⟨digests, hdigests, hfilled⟩
                exact .inr ⟨_, .malformedDigest hv htyped hpredicateTyped hsubjects hbefore
                  hdigests hfilled⟩
              · exact .inr ⟨_, .missingDigest hv htyped hpredicateTyped hsubjects hbefore
                  (not_exists.mp hdigests)⟩
        · exact .inr ⟨_, .missingSubject hv htyped hpredicateTyped (not_exists.mp hsubjects)⟩
      · exact .inr ⟨_, .missingPredicateType hv htyped hpredicateTyped⟩
    · by_cases htext : ∃ type, statement.lookup "_type" = some (.text type)
      · obtain ⟨type, htype⟩ := htext
        exact .inr ⟨_, .unsupportedType hv htype htyped⟩
      · exact .inr ⟨_, .missingType hv (not_exists.mp htext)⟩
  · exact .inr ⟨_, .notAnObject (not_exists.mp hobject)⟩

/-- **There is no fault just if the statement is well-formed.** -/
theorem statementFault?_eq_none_iff : statementFault? value = none ↔ WellFormed value := by
  refine ⟨fun h => ?_, statementFault?_of_wellFormed⟩
  rcases wellFormed_or_complaint value with hwell | ⟨message, hcomplaint⟩
  · exact hwell
  · obtain ⟨fault, hfault, -⟩ := exists_fault_of_complaint hcomplaint
    rw [h] at hfault
    cases hfault

/-- **What is told is the first condition that is not met.** -/
theorem complaint_iff {message : String} :
    (statementFault? value).map StatementFault.message = some message ↔
      Complaint value message := by
  rw [Option.map_eq_some_iff]
  refine ⟨?_, exists_fault_of_complaint⟩
  rintro ⟨fault, hfault, rfl⟩
  rcases wellFormed_or_complaint value with hwell | ⟨message, hcomplaint⟩
  · rw [statementFault?_of_wellFormed hwell] at hfault
    cases hfault
  · obtain ⟨told, htold, rfl⟩ := exists_fault_of_complaint hcomplaint
    obtain rfl := Option.some.inj (htold.symm.trans hfault)
    exact hcomplaint

instance (value : Value) : Decidable (WellFormed value) :=
  decidable_of_iff _ statementFault?_eq_none_iff

/-! ### Sorting out -/

variable {as : List Attestation}

/-- The faults are those of the attestations that have one, each with its place. -/
theorem mem_faults_iff {f : IndexedFault} : f ∈ (partitionFrom index as).2 ↔
    ∃ k a, as[k]? = some a ∧ f.index = index + k ∧ a.fault? = some f.fault := by
  induction as generalizing index with
  | nil => simp [partitionFrom]
  | cons a as ih =>
    have hrest : (∃ k b, (a :: as)[k]? = some b ∧ f.index = index + k ∧ b.fault? = some f.fault) ↔
        (f.index = index ∧ a.fault? = some f.fault) ∨ f ∈ (partitionFrom (index + 1) as).2 := by
      rw [ih]
      constructor
      · rintro ⟨k, b, hb, hindex, hfault⟩
        cases k with
        | zero =>
          cases hb
          exact .inl ⟨hindex, hfault⟩
        | succ k => exact .inr ⟨k, b, hb, by omega, hfault⟩
      · rintro (⟨hindex, hfault⟩ | ⟨k, b, hb, hindex, hfault⟩)
        · exact ⟨0, a, rfl, hindex, hfault⟩
        · exact ⟨k + 1, b, hb, by omega, hfault⟩
    rw [hrest, partitionFrom]
    cases hf : a.fault? with
    | none => simp
    | some fault =>
      simp only [List.mem_cons, Option.some.injEq]
      refine or_congr_left ?_
      constructor
      · rintro rfl
        exact ⟨rfl, rfl⟩
      · rintro ⟨hindex, rfl⟩
        cases f
        exact congrArg₂ IndexedFault.mk hindex rfl

/-- The places of the faults ascend. -/
theorem places_sublist (index : Nat) (as : List Attestation) :
    ((partitionFrom index as).2.map IndexedFault.index).Sublist
      (List.range' index as.length) := by
  induction as generalizing index with
  | nil => exact List.Sublist.slnil
  | cons a as ih =>
    rw [partitionFrom, List.length_cons, List.range'_succ]
    cases hf : a.fault? with
    | none => exact (ih (index + 1)).cons index
    | some fault => exact (ih (index + 1)).cons_cons index

/-- Every attestation is either left or told of. -/
theorem length_partitionFrom (index : Nat) (as : List Attestation) :
    (partitionFrom index as).1.length + (partitionFrom index as).2.length = as.length := by
  induction as generalizing index with
  | nil => rfl
  | cons a as ih =>
    have hrest := ih (index + 1)
    rw [partitionFrom]
    cases hf : a.fault? <;> simp only [List.length_cons] <;> omega

/-- What is left of attestations, and what is told of the others. -/
structure SortedOut (as left : List Attestation) (messages : List String) : Prop where
  /-- Those are left that are well-formed, in their order. -/
  wellFormed : left = as.filter fun a => WellFormed a.statement
  /-- Of each other one there is a message with its place and its fault, in the order of places. -/
  told : ∃ places : List Nat, places.Pairwise (· < ·) ∧
    (∀ i, i ∈ places ↔ ∃ a, as[i]? = some a ∧ ¬WellFormed a.statement) ∧
    List.Forall₂ (fun i message => ∃ a text, as[i]? = some a ∧ Complaint a.statement text ∧
      message = "attestation " ++ toString i ++ ": " ++ text) places messages
  /-- None is lost and none counts twice. -/
  count : left.length + messages.length = as.length

theorem filter_fault? (as : List Attestation) :
    (as.filter fun a => a.fault?.isNone) = as.filter fun a => WellFormed a.statement := by
  refine List.filter_congr fun a _ => ?_
  rw [Bool.eq_iff_iff, decide_eq_true_iff, ← statementFault?_eq_none_iff, Option.isNone_iff_eq_none]
  rfl

theorem sortedOut (as : List Attestation) :
    SortedOut as (partitionByShape as).1 ((partitionByShape as).2.map IndexedFault.message) where
  wellFormed := by rw [partitionByShape, partitionFrom_valid, filter_fault?]
  told := by
    refine ⟨(partitionByShape as).2.map IndexedFault.index, ?_, fun i => ?_, ?_⟩
    · have hrange : (List.range' 0 as.length).Pairwise (· < ·) := List.pairwise_lt_range'
      exact hrange.sublist (places_sublist 0 as)
    · simp only [List.mem_map, partitionByShape, mem_faults_iff, Nat.zero_add,
        ← statementFault?_eq_none_iff]
      constructor
      · rintro ⟨f, ⟨k, a, ha, rfl, hfault⟩, rfl⟩
        exact ⟨a, ha, fun hnone => by cases hnone.symm.trans hfault⟩
      · rintro ⟨a, ha, hfault⟩
        obtain ⟨fault, hfault⟩ := Option.ne_none_iff_exists'.mp hfault
        exact ⟨⟨i, fault⟩, ⟨i, a, ha, rfl, hfault⟩, rfl⟩
    · rw [List.forall₂_map_left_iff, List.forall₂_map_right_iff, List.forall₂_same]
      intro f hf
      obtain ⟨k, a, ha, hindex, hfault⟩ := mem_faults_iff.mp hf
      rw [Nat.zero_add] at hindex
      have hcomplaint : Complaint a.statement f.fault.message :=
        complaint_iff.mp (Option.map_eq_some_iff.mpr ⟨f.fault, hfault, rfl⟩)
      exact ⟨a, f.fault.message, hindex ▸ ha, hcomplaint, rfl⟩
  count := by
    rw [List.length_map]
    exact length_partitionFrom 0 as

/-- Of attestations that are left none is told of when they are sorted out again. -/
theorem partitionByShape_valid (as : List Attestation) :
    partitionByShape (partitionByShape as).1 = ((partitionByShape as).1, []) := by
  have hvalid : ∀ a ∈ (partitionByShape as).1, a.fault? = none := by
    intro a ha
    rw [partitionByShape, partitionFrom_valid] at ha
    exact Option.isNone_iff_eq_none.mp (List.mem_filter.mp ha).2
  refine Prod.ext ?_ ((faults_eq_nil_iff _).mpr hvalid)
  rw [partitionByShape, partitionFrom_valid, List.filter_eq_self]
  intro a ha
  exact Option.isNone_iff_eq_none.mpr (hvalid a ha)

/-- **The check is exact, and so is the sorting by it.** A value passes just if it is a well-formed
statement, and otherwise the first condition is told that it does not meet. Of attestations those
that pass are left in their order, each of the others is told of with its place, and what is left
stays as it is when it is sorted out again. -/
theorem sorting_exact (value : Value) (as : List Attestation) :
    (statementFault? value = none ↔ WellFormed value) ∧
    (∀ message, (statementFault? value).map StatementFault.message = some message ↔
      Complaint value message) ∧
    SortedOut as (partitionByShape as).1 ((partitionByShape as).2.map IndexedFault.message) ∧
    partitionByShape (partitionByShape as).1 = ((partitionByShape as).1, []) :=
  ⟨statementFault?_eq_none_iff, fun _ => complaint_iff, sortedOut as, partitionByShape_valid as⟩

/-- A statement of a known type whose second subject has a digest that is no string. -/
example : Complaint (.object [
      ("_type", .text "https://in-toto.io/Statement/v1"), ("predicateType", .text "x"),
      ("subject", .list [.object [("digest", .object [("sha256", .text "a")])],
        .object [("digest", .object [("sha256", .null)])]])])
    "subject 1 has a malformed `digest`" :=
  complaint_iff.mp (by decide +kernel)

end ImagePolicy
