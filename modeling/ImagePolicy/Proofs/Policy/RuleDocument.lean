/-
# The document that rules read

The configuration is written as a document of indented JSON, in which the lists of a context stand
in the order they are declared, and an empty list does not stand at all. Whoever reads the document
finds the lists as they are and the number for the effective time, and nothing beside them
(`RuleConfig.documentValue?_text`). The number is an integer of 64 bits, so it is read as it was
written.

Key definitions: `RuleConfig.listed`, `RuleConfig.members`, `PolicyContext.rulesAt`.
Key theorems: `RuleConfig.encode_perm`, `RuleConfig.documentValue?_text`,
`PolicyContext.documentValue?_configBytes`.
-/
import ImagePolicy.Proofs.Json.Documents
import ImagePolicy.Proofs.Policy.RuleTime
import ImagePolicy.Scratch.Workspace

namespace ImagePolicy

open Json (Value Members)

namespace RuleConfig

/-- A list under its key, left out when it is empty. -/
def listed (key : String) (items : List String) : Members :=
  if items = [] then [] else [(key, .list (items.map .text))]

/-- What rules read of a configuration, in key order. -/
def members (c : RuleConfig) : Members :=
  listed "collections" c.collections ++ listed "exclude" c.excluded ++
    listed "include" c.included ++ listed "non_blocking_checks" c.nonBlocking ++
    [("when_ns", .ofInt c.whenNs)]

variable {key : String} {items : List String} {c : RuleConfig} {m : String × Value}

theorem mem_listed_iff :
    m ∈ listed key items ↔ items ≠ [] ∧ m = (key, .list (items.map .text)) := by
  rw [listed]
  by_cases h : items = [] <;> simp [h]

theorem keys_listed_sublist (key : String) (items : List String) :
    ((listed key items).map Prod.fst).Sublist [key] := by
  rw [listed]
  by_cases h : items = []
  · rw [if_pos h]
    exact List.nil_sublist _
  · rw [if_neg h]
    exact List.Sublist.refl _

/-- A member of a configuration is a list of texts, or the number. -/
theorem mem_members (h : m ∈ c.members) :
    (∃ items : List String, m.2 = .list (items.map .text)) ∨ m.2 = .ofInt c.whenNs := by
  simp only [members, List.mem_append, mem_listed_iff, List.mem_singleton] at h
  rcases h with (((⟨-, rfl⟩ | ⟨-, rfl⟩) | ⟨-, rfl⟩) | ⟨-, rfl⟩) | rfl
  · exact .inl ⟨_, rfl⟩
  · exact .inl ⟨_, rfl⟩
  · exact .inl ⟨_, rfl⟩
  · exact .inl ⟨_, rfl⟩
  · exact .inr rfl

theorem ascending_members (c : RuleConfig) : Json.Ascending c.members := by
  have hkeys : (c.members.map Prod.fst).Sublist
      (["collections"] ++ ["exclude"] ++ ["include"] ++ ["non_blocking_checks"] ++
        ["when_ns"]) := by
    simp only [members, List.map_append]
    exact ((((keys_listed_sublist _ _).append (keys_listed_sublist _ _)).append
      (keys_listed_sublist _ _)).append (keys_listed_sublist _ _)).append (.refl _)
  have hascending : (["collections"] ++ ["exclude"] ++ ["include"] ++ ["non_blocking_checks"] ++
      ["when_ns"]).Pairwise (· < ·) := by
    decide
  exact hascending.sublist hkeys

/-- A configuration is written with the members that rules read, in another order. -/
theorem encode_perm (c : RuleConfig) :
    ∃ ms : Members, c.encode = .object ms ∧ ms.Perm c.members := by
  have hlisted : ∀ key items, listed key items =
      ((Field.writeList Value.text items).map fun v => (key, v)).toList := by
    intro key items
    rw [listed, Field.writeList]
    cases items <;> rfl
  have hencode : c.encode = .object (listed "non_blocking_checks" c.nonBlocking ++
      (listed "exclude" c.excluded ++ (listed "include" c.included ++
        (listed "collections" c.collections ++ [("when_ns", .ofInt c.whenNs)])))) := by
    rw [hlisted, hlisted, hlisted, hlisted, encode]
    generalize Field.writeList Value.text c.nonBlocking = checks
    generalize Field.writeList Value.text c.excluded = excluded
    generalize Field.writeList Value.text c.included = included
    generalize Field.writeList Value.text c.collections = collections
    cases checks <;> cases excluded <;> cases included <;> cases collections <;> rfl
  refine ⟨_, hencode, ?_⟩
  rw [members]
  generalize listed "non_blocking_checks" c.nonBlocking = checks
  generalize listed "exclude" c.excluded = excluded
  generalize listed "include" c.included = included
  generalize listed "collections" c.collections = collections
  -- the lists at the two ends change places
  have hends : (checks ++ (excluded ++ included) ++ collections).Perm
      (collections ++ (excluded ++ included) ++ checks) :=
    (List.perm_append_comm.trans (List.perm_append_comm.append_left collections)).trans
      (.of_eq (List.append_assoc _ _ _).symm)
  simpa only [List.append_assoc] using hends.append_right [("when_ns", Value.ofInt c.whenNs)]

/-- What stands under a key is a list of texts at most, and so in key order. -/
theorem flat_of_mem (hm : m ∈ c.members) : Json.Ordered m.2 ∧ Json.depth m.2 ≤ 1 := by
  rcases mem_members hm with ⟨items, hitems⟩ | hnumber
  · rw [hitems]
    exact ⟨Json.orderedItems_iff.mpr (List.forall_mem_map.mpr fun _ _ => trivial),
      Json.depth_list_le_iff.mpr (List.forall_mem_map.mpr fun _ _ => Nat.le_refl 0)⟩
  · rw [hnumber]
    exact ⟨trivial, Nat.zero_le 1⟩

theorem whole_of_mem (h : leastWhen ≤ c.whenNs ∧ c.whenNs ≤ greatestWhen) (hm : m ∈ c.members) :
    Json.Whole m.2 := by
  rcases mem_members hm with ⟨items, hitems⟩ | hnumber
  · rw [hitems]
    exact Json.wholeItems_iff.mpr (List.forall_mem_map.mpr fun _ _ => trivial)
  · rw [hnumber]
    exact ⟨h.1, lt_of_le_of_lt h.2 (by decide)⟩

/-- A configuration whose number has 64 bits is read as it is written. -/
theorem whole_document (h : leastWhen ≤ c.whenNs ∧ c.whenNs ≤ greatestWhen) :
    Json.Whole c.document := by
  obtain ⟨ms, hencode, hperm⟩ := c.encode_perm
  have hms : Json.WholeMembers ms :=
    Json.wholeMembers_iff.mpr fun m hm => whole_of_mem h (hperm.mem_iff.mp hm)
  rw [document, hencode]
  exact ⟨⟨hms, trivial⟩, trivial⟩

/-- A configuration is nested four deep: two objects, its own, and the lists in it. -/
theorem depth_document_le (c : RuleConfig) : Json.depth c.document ≤ 4 := by
  obtain ⟨ms, hencode, hperm⟩ := c.encode_perm
  have hms : ∀ m ∈ ms, Json.depth m.2 ≤ 1 := fun m hm => (flat_of_mem (hperm.mem_iff.mp hm)).2
  rw [document, hencode]
  simpa [Json.depth_object_le_iff] using hms

/-- In key order it has the members that rules read. -/
theorem ordered_document (c : RuleConfig) :
    c.document.ordered = .object [("config", .object [("policy", .object c.members)])] := by
  obtain ⟨ms, hencode, hperm⟩ := c.encode_perm
  have hms : Value.orderedMembers ms = ms := Json.orderedMembers_eq_of_ordered
    (Json.orderedMembers_iff.mpr fun m hm => (flat_of_mem (hperm.mem_iff.mp hm)).1)
  have hpolicy : c.encode.ordered = .object c.members := by
    rw [hencode, Value.ordered, hms, Json.collect_eq_of_perm hperm c.ascending_members]
  simp only [document, Value.ordered, Value.orderedMembers, hpolicy]
  rfl

/-- **The document says what rules read**, and nothing else. -/
theorem documentValue?_text (h : leastWhen ≤ c.whenNs ∧ c.whenNs ≤ greatestWhen) {levels : Nat}
    (hlevels : 4 ≤ levels) : documentValue? levels (Utf8.encode c.text) =
      some (.object [("config", .object [("policy", .object c.members)])]) := by
  rw [text, documentValue?_encode (whole_document h) (c.depth_document_le.trans hlevels),
    ordered_document]

/-- The number has 64 bits in any case. -/
theorem whenNs_fits (c : PolicyContext) :
    leastWhen ≤ (ofContext c).whenNs ∧ (ofContext c).whenNs ≤ greatestWhen := by
  rw [whenNs_eq]
  by_cases h : leastWhen ≤ c.instant.nanoseconds ∧ c.instant.nanoseconds ≤ greatestWhen
  · rw [if_pos h]
    exact h
  · rw [if_neg h]
    decide

end RuleConfig

/-- What rules read of the lists of a context, and of an instant. -/
def PolicyContext.rulesAt (c : PolicyContext) (i : Instant) : Members :=
  RuleConfig.members ⟨c.nonBlocking, c.excluded, c.included, c.collections,
    i.nanoseconds?.getD RuleConfig.greatestWhen⟩

/-- **The configuration that is written of a context says what rules read of it** at its effective
time. -/
theorem PolicyContext.documentValue?_configBytes (c : PolicyContext) :
    documentValue? Json.maxNesting (Workspace.configBytes c) =
      some (.object [("config", .object [("policy", .object (c.rulesAt c.instant))])]) :=
  RuleConfig.documentValue?_text (RuleConfig.whenNs_fits c) (by decide)

end ImagePolicy
