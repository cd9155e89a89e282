/-
# What a policy reads off a result

The metadata of a result is free JSON. This file says on that JSON what a policy goes by: the
matchers of a result (`RuleResult.Matches`), whether a context keeps it (`Kept`), and whether it
starts to block only after the effective time (`NotYet`). Each of these is the test that the
classifier makes (`mem_matchers_iff`, `keeps_iff`, `effectiveAt_eq_false_iff`), so results about
classification can be stated without the classifier.

Key definitions: `RuleResult.Says`, `EndsIn`, `RuleResult.Coded`, `RuleResult.Matches`, `Kept`,
`NotYet`.
Key theorems: `lastSegments_eq_iff`, `mem_matchers_iff`, `keeps_iff`, `effectiveAt_eq_false_iff`.
-/
import ImagePolicy.Rule.Classifier
import ImagePolicy.Proofs.Json.Documents
import ImagePolicy.Proofs.Text.Segments

namespace ImagePolicy

open Json (Value)

/-! ### The code and the term -/

/-- A text ends in two dotted segments. -/
structure EndsIn (text package rule : String) : Prop where
  packageWhole : '.' ∉ package.toList
  ruleWhole : '.' ∉ rule.toList
  spelled : text = package ++ "." ++ rule ∨ ∃ front, text = front ++ "." ++ package ++ "." ++ rule

namespace RuleResult

/-- The metadata holds a string under a key. -/
def Says (r : RuleResult) (key text : String) : Prop :=
  r.metadata.lookup key = some (.text text)

/-- The code of a result ends in a package, which has characters, and a rule. -/
def Coded (r : RuleResult) (package rule : String) : Prop :=
  package ≠ "" ∧ ∃ code, r.Says "code" code ∧ EndsIn code package rule

/-- A result has a term, which has characters. -/
def Termed (r : RuleResult) (term : String) : Prop :=
  term ≠ "" ∧ r.Says "term" term

/-- The texts that match a result. -/
inductive Matches (r : RuleResult) : String → Prop
  | all : r.Matches "*"
  | package {p q : String} : r.Coded p q → r.Matches p
  | anyRule {p q : String} : r.Coded p q → r.Matches (p ++ ".*")
  | rule {p q : String} : r.Coded p q → r.Matches (p ++ "." ++ q)
  | packageTerm {p q t : String} : r.Coded p q → r.Termed t → r.Matches (p ++ ":" ++ t)
  | anyRuleTerm {p q t : String} : r.Coded p q → r.Termed t → r.Matches (p ++ ".*" ++ ":" ++ t)
  | ruleTerm {p q t : String} : r.Coded p q → r.Termed t → r.Matches (p ++ "." ++ q ++ ":" ++ t)

end RuleResult

theorem toList_dotted (a b : String) : (a ++ "." ++ b).toList = a.toList ++ '.' :: b.toList := by
  simp

/-- The last two segments are found where the text ends in them and the first is not empty. -/
theorem lastSegments_eq_iff {text package rule : String} :
    lastSegments text = (some package, rule) ↔ package ≠ "" ∧ EndsIn text package rule := by
  have hspelled : EndsIn text package rule ↔
      ∃ rest, (Text.split '.' text.toList).reverse = rule.toList :: package.toList :: rest := by
    rw [Text.split_reverse_eq_iff]
    constructor
    · rintro ⟨hp, hr, rfl | ⟨front, rfl⟩⟩
      · exact ⟨hr, hp, Or.inl (toList_dotted package rule)⟩
      · exact ⟨hr, hp, Or.inr ⟨front.toList, by simp⟩⟩
    · rintro ⟨hr, hp, h | ⟨front, h⟩⟩
      · exact ⟨hp, hr, Or.inl (String.toList_inj.mp (by rw [h, toList_dotted]))⟩
      · refine ⟨hp, hr, Or.inr ⟨String.ofList front, String.toList_inj.mp ?_⟩⟩
        rw [h]
        simp
  rw [hspelled]
  unfold lastSegments
  constructor
  · intro h
    split at h
    · next last before rest hs =>
      split at h
      · simp at h
      · next hne =>
        simp only [Prod.mk.injEq, Option.some.injEq] at h
        obtain ⟨rfl, rfl⟩ := h
        refine ⟨fun he => hne ?_, rest, by simpa using hs⟩
        rw [← String.toList_ofList (l := before), he]
        rfl
    · simp at h
    · simp at h
  · rintro ⟨hne, rest, hs⟩
    have hp : package.toList ≠ [] := fun he => hne (String.toList_inj.mp he)
    rw [hs]
    simp only [if_neg hp, String.ofList_toList]

namespace RuleResult

variable {r : RuleResult}

theorem filledString?_eq_some_iff {key text : String} :
    r.filledString? key = some text ↔ text ≠ "" ∧ r.Says key text := by
  have hread : (r.get? key).bind Value.string? = some text ↔ r.Says key text := by
    rw [Option.bind_eq_some_iff]
    simp only [Value.string?_eq_some_iff, exists_eq_right]
    rfl
  rw [← hread]
  unfold filledString?
  cases (r.get? key).bind Value.string? with
  | none => simp
  | some s =>
    by_cases hs : s = ""
    · simp only [hs, ↓reduceIte]
      grind
    · simp only [hs, ↓reduceIte]
      grind

theorem ne_empty_of_endsIn {text p q : String} (h : EndsIn text p q) : text ≠ "" := by
  rintro rfl
  rcases h.spelled with hspelled | ⟨front, hspelled⟩ <;>
    simpa using congrArg String.toList hspelled

/-- What the code ends in is what its last two segments are. -/
theorem coded_iff {p q : String} : r.Coded p q ↔ lastSegments (r.code.getD "") = (some p, q) := by
  constructor
  · rintro ⟨hp, code, hsays, hends⟩
    have hcode : r.code = some code :=
      filledString?_eq_some_iff.mpr ⟨ne_empty_of_endsIn hends, hsays⟩
    rw [hcode]
    exact lastSegments_eq_iff.mpr ⟨hp, hends⟩
  · intro h
    obtain ⟨hp, hends⟩ := lastSegments_eq_iff.mp h
    cases hcode : r.code with
    | none =>
      rw [hcode] at hends
      exact absurd rfl (ne_empty_of_endsIn hends)
    | some code =>
      rw [hcode] at hends
      exact ⟨hp, code, (filledString?_eq_some_iff.mp hcode).2, hends⟩

theorem mem_codeMatchers_iff {m : String} :
    m ∈ r.codeMatchers ↔ ∃ p q, r.Coded p q ∧ (m = p ∨ m = p ++ ".*" ∨ m = p ++ "." ++ q) := by
  simp only [coded_iff]
  unfold codeMatchers
  constructor
  · intro h
    split at h
    · next p q hs => exact ⟨p, q, hs, by simpa [packageMatchers] using h⟩
    · simp at h
  · rintro ⟨p, q, hs, hm⟩
    rw [hs]
    simpa [packageMatchers] using hm

theorem mem_termMatchers_iff {m : String} :
    m ∈ r.termMatchers ↔ ∃ t, r.Termed t ∧ ∃ n ∈ r.codeMatchers, m = n ++ ":" ++ t := by
  unfold termMatchers
  constructor
  · intro h
    split at h
    · next t ht =>
      obtain ⟨n, hn, rfl⟩ := List.mem_map.mp h
      exact ⟨t, filledString?_eq_some_iff.mp ht, n, hn, rfl⟩
    · simp at h
  · rintro ⟨t, ht, n, hn, rfl⟩
    have hterm : r.term = some t := filledString?_eq_some_iff.mpr ht
    rw [hterm]
    exact List.mem_map.mpr ⟨n, hn, rfl⟩

/-- **The matchers of a result are the texts that match it.** -/
theorem mem_matchers_iff {m : String} : m ∈ r.matchers ↔ r.Matches m := by
  simp only [matchers, List.mem_append, List.mem_singleton, mem_termMatchers_iff,
    mem_codeMatchers_iff]
  constructor
  · rintro ((⟨p, q, hc, rfl | rfl | rfl⟩ | ⟨t, ht, n, ⟨p, q, hc, rfl | rfl | rfl⟩, rfl⟩) | rfl)
    · exact .package hc
    · exact .anyRule hc
    · exact .rule hc
    · exact .packageTerm hc ht
    · exact .anyRuleTerm hc ht
    · exact .ruleTerm hc ht
    · exact .all
  · rintro (_ | hc | hc | hc | ⟨hc, ht⟩ | ⟨hc, ht⟩ | ⟨hc, ht⟩)
    · exact Or.inr rfl
    · exact Or.inl (Or.inl ⟨_, _, hc, Or.inl rfl⟩)
    · exact Or.inl (Or.inl ⟨_, _, hc, Or.inr (Or.inl rfl)⟩)
    · exact Or.inl (Or.inl ⟨_, _, hc, Or.inr (Or.inr rfl)⟩)
    · exact Or.inl (Or.inr ⟨_, ht, _, ⟨_, _, hc, Or.inl rfl⟩, rfl⟩)
    · exact Or.inl (Or.inr ⟨_, ht, _, ⟨_, _, hc, Or.inr (Or.inl rfl)⟩, rfl⟩)
    · exact Or.inl (Or.inr ⟨_, ht, _, ⟨_, _, hc, Or.inr (Or.inr rfl)⟩, rfl⟩)

/-! ### What is kept, and what does not block yet -/

/-- A result is in a collection that a context selects. -/
def InCollection (c : PolicyContext) (r : RuleResult) : Prop :=
  ∃ items, r.metadata.lookup "collections" = some (.list items) ∧
    ∃ name ∈ c.collections, .text name ∈ items

theorem selectsCollection_iff {c : PolicyContext} :
    (RuleSelection.ofContext c).selectsCollection r = true ↔ r.InCollection c := by
  have hread : ∀ items, (r.get? "collections").bind Value.items? = some items ↔
      r.metadata.lookup "collections" = some (.list items) := by
    intro items
    rw [Option.bind_eq_some_iff]
    simp only [Value.items?_eq_some_iff, exists_eq_right]
    rfl
  simp only [RuleSelection.selectsCollection, RuleSelection.ofContext, List.any_eq_true,
    List.contains_iff_mem]
  unfold InCollection collections
  constructor
  · rintro ⟨name, hname, hc⟩
    split at hname
    · next items hi =>
      obtain ⟨v, hv, hs⟩ := List.mem_filterMap.mp hname
      exact ⟨items, (hread items).mp hi, name, hc, Value.string?_eq_some_iff.mp hs ▸ hv⟩
    · simp at hname
  · rintro ⟨items, hi, name, hc, hv⟩
    refine ⟨name, ?_, hc⟩
    rw [(hread items).mpr hi]
    exact List.mem_filterMap.mpr ⟨_, hv, rfl⟩

end RuleResult

/-- A context keeps a result: it is in a selected collection, or one of its matchers is included,
or nothing is selected at all; and none of its matchers is excluded or not to block. -/
structure Kept (c : PolicyContext) (r : RuleResult) : Prop where
  selected : r.InCollection c ∨ (∃ m ∈ c.included, r.Matches m) ∨
    c.included = [] ∧ c.collections = []
  notExcluded : ∀ m, r.Matches m → m ∉ c.excluded ∧ m ∉ c.nonBlocking

/-- A result says in a usable way that it starts to block after an instant. -/
def NotYet (moment : Instant) (r : RuleResult) : Prop :=
  ∃ text start, r.Says "effective_on" text ∧ EffectiveDate.parseString? text = some start ∧
    moment < start

namespace RuleSelection

variable {c : PolicyContext} {r : RuleResult}

theorem includes_iff : (ofContext c).includes r = true ↔
    r.InCollection c ∨ (∃ m ∈ c.included, r.Matches m) ∨ c.included = [] ∧ c.collections = [] := by
  simp only [includes, Bool.or_eq_true, RuleResult.selectsCollection_iff, List.any_eq_true,
    List.contains_iff_mem, RuleResult.mem_matchers_iff]
  refine or_congr_right ?_
  by_cases hnone : c.included = [] ∧ c.collections = []
  · -- the wildcard stands for the empty selection, and it is a matcher of every result
    have hw : (ofContext c).included = [wildcard] := by simp [ofContext, hnone.1, hnone.2]
    rw [hw]
    exact ⟨fun _ => Or.inr hnone, fun _ => ⟨wildcard, .all, List.mem_singleton_self _⟩⟩
  · have hi : (ofContext c).included = c.included := by
      simp only [ofContext, Bool.and_eq_true, List.isEmpty_iff, if_neg hnone]
    rw [hi]
    constructor
    · rintro ⟨m, hm, hc⟩
      exact Or.inl ⟨m, hc, hm⟩
    · rintro (⟨m, hc, hm⟩ | h)
      · exact ⟨m, hm, hc⟩
      · exact absurd h hnone

theorem mem_excluded_iff {m : String} :
    m ∈ (ofContext c).excluded ↔ m ∈ c.excluded ∨ m ∈ c.nonBlocking := by
  simp only [ofContext, List.mem_append, List.mem_filter, Bool.not_eq_true',
    List.contains_eq_mem, decide_eq_false_iff_not]
  by_cases hm : m ∈ c.excluded <;> simp [hm]

/-- **The selection keeps what the context keeps.** -/
theorem keeps_iff : (ofContext c).keeps r = true ↔ Kept c r := by
  have hx : (ofContext c).excludes r = false ↔
      ∀ m, r.Matches m → m ∉ c.excluded ∧ m ∉ c.nonBlocking := by
    simp only [excludes, List.any_eq_false, List.contains_iff_mem, mem_excluded_iff,
      RuleResult.mem_matchers_iff, not_or]
  rw [keeps, Bool.and_eq_true, Bool.not_eq_true', includes_iff, hx]
  exact ⟨fun h => ⟨h.1, h.2⟩, fun h => ⟨h.1, h.2⟩⟩

end RuleSelection

/-- A failure blocks at an instant unless it says in a usable way that it does not yet. -/
theorem effectiveAt_eq_false_iff {moment : Instant} {r : RuleResult} :
    r.effectiveAt moment = false ↔ NotYet moment r := by
  unfold RuleResult.effectiveAt RuleResult.effectiveOn NotYet RuleResult.Says RuleResult.get?
  cases hv : r.metadata.lookup "effective_on" with
  | none => simp
  | some v =>
    cases v with
    | text s =>
      cases hs : EffectiveDate.parseString? s with
      | none => simp [hs]
      | some start => simp [hs, Instant.not_le]
    | _ => simp

instance (c : PolicyContext) (r : RuleResult) : Decidable (Kept c r) :=
  decidable_of_iff _ RuleSelection.keeps_iff

instance (moment : Instant) (r : RuleResult) : Decidable (NotYet moment r) :=
  decidable_of_iff _ effectiveAt_eq_false_iff

end ImagePolicy
