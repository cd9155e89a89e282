/-
# The attestations that count

Of the attestations of an image those count that have a well-formed statement with the image as a
subject; they come in their original order, whatever else stands between them. So attestations
that do not count can be put in anywhere (`Inserted`) and the ones that count stay the same
(`counting_eq_of_inserted`); at most the check of the shape notices them.

Key definitions: `counting`, `Inserted`, `Attestation.Irrelevant`.
Key theorems: `matching_valid`, `faults_eq_nil_iff`, `mem_counting_iff`,
`counting_eq_of_inserted`.
-/
import ImagePolicy.Attestation.Statement

namespace ImagePolicy

/-! ### The partition by shape -/

theorem partitionFrom_valid : ∀ (index : Nat) (as : List Attestation),
    (partitionFrom index as).1 = as.filter fun a => a.fault?.isNone
  | _, [] => rfl
  | index, a :: as => by
    have ih := partitionFrom_valid (index + 1) as
    unfold partitionFrom
    cases hf : a.fault? <;> simp [hf, ih]

theorem partitionFrom_faults_eq_nil_iff : ∀ (index : Nat) (as : List Attestation),
    (partitionFrom index as).2 = [] ↔ ∀ a ∈ as, a.fault? = none
  | _, [] => by simp [partitionFrom]
  | index, a :: as => by
    have ih := partitionFrom_faults_eq_nil_iff (index + 1) as
    unfold partitionFrom
    cases hf : a.fault? <;> simp [hf, ih]

/-- There is no fault just if every attestation is well-formed. -/
theorem faults_eq_nil_iff (as : List Attestation) :
    (partitionByShape as).2 = [] ↔ ∀ a ∈ as, a.fault? = none :=
  partitionFrom_faults_eq_nil_iff 0 as

/-- The attestations that count for a digest: the well-formed ones with a subject that has it. -/
def counting (hex : String) (as : List Attestation) : List Attestation :=
  as.filter fun a => a.fault? = none ∧ hex ∈ a.subjectDigests

theorem mem_counting_iff {hex : String} {as : List Attestation} {a : Attestation} :
    a ∈ counting hex as ↔ a ∈ as ∧ a.fault? = none ∧ hex ∈ a.subjectDigests := by
  simp [counting]

theorem counting_ne_nil_iff {hex : String} {as : List Attestation} :
    counting hex as ≠ [] ↔ ∃ a ∈ as, a.fault? = none ∧ hex ∈ a.subjectDigests := by
  simp only [← mem_counting_iff]
  exact ⟨List.exists_mem_of_ne_nil _, fun ⟨_, ha⟩ => List.ne_nil_of_mem ha⟩

/-- Sorting out by shape and then by digest leaves the attestations that count. -/
theorem matching_valid (hex : String) (as : List Attestation) :
    matching hex (partitionByShape as).1 = counting hex as := by
  unfold matching partitionByShape counting
  rw [partitionFrom_valid, List.filter_filter]
  refine List.filter_congr fun a _ => ?_
  rw [Bool.eq_iff_iff]
  simp only [Attestation.covers, Bool.and_eq_true, List.contains_iff_mem, Option.isNone_iff_eq_none,
    decide_eq_true_iff]
  exact and_comm

/-! ### Attestations that do not count -/

/-- The last list is the one before it with the items of the first put in, at any places. -/
inductive Inserted {α : Type} : List α → List α → List α → Prop
  | nil : Inserted [] [] []
  | keep {new as bs : List α} (a : α) : Inserted new as bs → Inserted new (a :: as) (a :: bs)
  | insert {new as bs : List α} (a : α) : Inserted new as bs → Inserted (a :: new) as (a :: bs)

namespace Inserted

variable {α : Type} {new as bs : List α}

theorem filter_eq (p : α → Bool) (h : Inserted new as bs) (hout : ∀ a ∈ new, p a = false) :
    as.filter p = bs.filter p := by
  induction h with
  | nil => rfl
  | keep a _ ih => rw [List.filter_cons, List.filter_cons, ih hout]
  | insert a _ ih =>
    rw [List.filter_cons, hout a List.mem_cons_self,
      ih fun x hx => hout x (List.mem_cons_of_mem _ hx)]
    rfl

theorem forall_mem_iff (P : α → Prop) (h : Inserted new as bs) :
    (∀ a ∈ bs, P a) ↔ (∀ a ∈ as, P a) ∧ ∀ a ∈ new, P a := by
  induction h with
  | nil => simp
  | keep a _ ih => simp only [List.forall_mem_cons, ih, and_assoc]
  | insert a _ ih =>
    simp only [List.forall_mem_cons, ih]
    exact and_left_comm

end Inserted

/-- An attestation does not count for a digest. -/
def Attestation.Irrelevant (hex : String) (a : Attestation) : Prop :=
  a.fault? ≠ none ∨ hex ∉ a.subjectDigests

/-- **What does not count changes nothing of what counts**, wherever it is put in. -/
theorem counting_eq_of_inserted {hex : String} {new as bs : List Attestation}
    (h : Inserted new as bs) (hirr : ∀ a ∈ new, a.Irrelevant hex) :
    counting hex as = counting hex bs := by
  refine h.filter_eq _ fun a ha => ?_
  rw [decide_eq_false_iff_not]
  rintro ⟨hf, hm⟩
  rcases hirr a ha with h | h
  · exact h hf
  · exact h hm

end ImagePolicy
