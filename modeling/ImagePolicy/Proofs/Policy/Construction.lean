/-
# How contexts are built

A policy and what the caller puts before it make a context in one of three ways
(`PolicyContext.new_cases`): there is no key, there is no time, or there is a context. The lack of a
key is found first, whatever time is asked for. A text for the time is usable if it is `now` or
names an instant; none and the empty text ask for no time, and then the time stands in for now.

The context has the caller's key and log where he gives any, and the policy's where he does not; its
lists are those of the policy without repetitions, in the order in which the values first occur
(`PolicyContext.BuiltFrom`). So a policy that is made of a context's key, log and lists makes a
context with the same (`PolicyContext.Stable`).

Key definitions: `Missing`, `Chosen`, `Asks`, `Unusable`, `Keyless`, `PolicyContext.BuiltFrom`,
`PolicyContext.Stable`, `PolicyContext.Construction`.
Key theorems: `overridden_eq_empty_iff`, `requestedTime_cases`, `PolicyContext.new_cases`,
`PolicyContext.builtFrom_ofSpec`, `PolicyContext.stable`, `PolicyContext.new_exact`.
-/
import ImagePolicy.Proofs.Policy.Occurrences
import ImagePolicy.Proofs.Policy.Timing
import ImagePolicy.Proofs.Time.TimeForms

namespace ImagePolicy

/-- A text is not given, or it is given empty. -/
def Missing (given : Option String) : Prop :=
  given = none ∨ given = some ""

/-- A value is the one that the caller gives, or the policy's own if he gives none. -/
structure Chosen (given : Option String) (own value : String) : Prop where
  filled : ¬Missing given → given = some value
  missing : Missing given → value = own

/-- A text asks for an instant, when the clock shows another. -/
def Asks (clock : Instant) (text : String) (i : Instant) : Prop :=
  text = "now" ∧ i = clock ∨ Rfc3339.Names text i

/-- A text that is given as a time does not ask for any. -/
structure Unusable (text : String) : Prop where
  filled : text ≠ ""
  notNow : text ≠ "now"
  nameless : ¬∃ i, Rfc3339.Names text i

/-! ### Values that may be overridden -/

section Overriding

variable {given : Option String} {own value : String}

theorem not_missing_iff : ¬Missing given ↔ ∃ text, given = some text ∧ text ≠ "" := by
  unfold Missing
  cases given <;> simp

theorem missing_iff : Missing given ↔ given.getD "" = "" := by
  unfold Missing
  cases given <;> simp

theorem overridden_of_missing (h : Missing given) : overridden given own = own := by
  rcases h with rfl | rfl
  · rfl
  · rw [overridden, if_pos rfl]

theorem overridden_of_filled (h : value ≠ "") : overridden (some value) own = value :=
  if_neg h

theorem chosen_overridden (given : Option String) (own : String) :
    Chosen given own (overridden given own) where
  filled h := by
    obtain ⟨text, rfl, htext⟩ := not_missing_iff.mp h
    rw [overridden_of_filled htext]
  missing := overridden_of_missing

theorem overridden_eq_empty_iff : overridden given own = "" ↔ Missing given ∧ own = "" := by
  by_cases h : Missing given
  · rw [overridden_of_missing h, and_iff_right h]
  · obtain ⟨text, rfl, htext⟩ := not_missing_iff.mp h
    rw [overridden_of_filled htext]
    exact iff_of_false htext fun hboth => h hboth.1

/-- A value stays if it is given once more, or not at all. -/
theorem overridden_self (h : Missing given ∨ given = some own) : overridden given own = own := by
  rcases h with h | rfl
  · exact overridden_of_missing h
  · by_cases hown : own = ""
    · rw [hown]
      rfl
    · exact overridden_of_filled hown

end Overriding

/-! ### The time that is asked for -/

section Time

variable {clock i : Instant} {text : String} {value : Option String}

/-- An instant is named by more than a word. -/
theorem Rfc3339.Names.ne (h : Rfc3339.Names text i) : text ≠ "" ∧ text ≠ "now" := by
  have hread := Rfc3339.parseString_eq_ok_iff.mpr h
  constructor
  · rintro rfl
    cases hread
  · rintro rfl
    cases hread

/-- **A time is asked for in one of three ways**, or the text is unusable. -/
theorem requestedTime_cases (clock : Instant) (value : Option String) :
    Missing value ∧ requestedTime clock value = .ok (.now clock) ∨
    (∃ text i, value = some text ∧ Asks clock text i ∧
      requestedTime clock value = .ok (.pinned i)) ∨
    ∃ text fault, value = some text ∧ Unusable text ∧
      requestedTime clock value = .error (.effectiveTime text fault) := by
  by_cases hmissing : Missing value
  · exact .inl ⟨hmissing, PolicyContext.requestedTime_of_empty clock (missing_iff.mp hmissing)⟩
  · obtain ⟨text, rfl, hfilled⟩ := not_missing_iff.mp hmissing
    rw [PolicyContext.requestedTime_some clock hfilled]
    by_cases hnow : text = "now"
    · exact .inr (.inl ⟨text, clock, rfl, .inl ⟨hnow, rfl⟩, if_pos hnow⟩)
    · rw [if_neg hnow]
      cases hread : Rfc3339.parseString text with
      | ok i =>
        exact .inr (.inl ⟨text, i, rfl, .inr (Rfc3339.parseString_eq_ok_iff.mp hread), rfl⟩)
      | error fault =>
        refine .inr (.inr ⟨text, fault, rfl, ⟨hfilled, hnow, ?_⟩, rfl⟩)
        rintro ⟨i, hi⟩
        cases hread.symm.trans (Rfc3339.parseString_eq_ok_iff.mpr hi)

/-- No time is asked for by a text that is not given, or unusable. -/
theorem Asks.usable (h : Asks clock text i) : text ≠ "" ∧ ¬Unusable text := by
  rcases h with ⟨rfl, -⟩ | h
  · exact ⟨by decide, fun hnot => hnot.notNow rfl⟩
  · exact ⟨h.ne.1, fun hnot => hnot.nameless ⟨i, h⟩⟩

end Time

/-! ### Contexts -/

/-- Neither the caller nor the policy gives a key. -/
def Keyless (spec : PolicySpec) (o : Overrides) : Prop :=
  Missing o.publicKey ∧ spec.publicKey = ""

namespace PolicyContext

/-- A context is that of a policy and overrides, built when the clock shows an instant. -/
structure BuiltFrom (clock : Instant) (spec : PolicySpec) (o : Overrides) (c : PolicyContext) :
    Prop where
  publicKey : Chosen o.publicKey spec.publicKey c.publicKey
  /-- An empty log is none. -/
  rekorUrl : ∃ url, Chosen o.rekorUrl spec.rekorUrl url ∧
    c.rekorUrl = if url = "" then none else some url
  /-- The time stands in for now just if no other is given, -/
  standIn : c.effectiveTime = .now clock ↔ Missing o.effectiveTime
  /-- in which case the attestations may replace it, -/
  replaceable : (∀ i, (c.setAttestationTime i).effectiveTime = .attested i) ↔
    Missing o.effectiveTime
  /-- and otherwise the time that is asked for is pinned. -/
  pinned : (∃ text i, o.effectiveTime = some text ∧ Asks clock text i ∧
    c.effectiveTime = .pinned i) ↔ ¬Missing o.effectiveTime
  included : Condensed (spec.configuration.getD {}).included c.included
  excluded : Condensed (spec.configuration.getD {}).excluded c.excluded
  collections : Condensed (spec.configuration.getD {}).collections c.collections
  nonBlocking : Condensed (spec.exceptions.getD {}).nonBlocking c.nonBlocking
  sources : c.sources = spec.sources

/-- Contexts have the same key, the same log and the same lists. -/
structure SameTerms (c d : PolicyContext) : Prop where
  publicKey : d.publicKey = c.publicKey
  rekorUrl : d.rekorUrl = c.rekorUrl
  included : d.included = c.included
  excluded : d.excluded = c.excluded
  collections : d.collections = c.collections
  nonBlocking : d.nonBlocking = c.nonBlocking

/-- A policy is made of the key, the log and the lists of a context. -/
structure Restated (c : PolicyContext) (spec : PolicySpec) : Prop where
  publicKey : spec.publicKey = c.publicKey
  rekorUrl : spec.rekorUrl = c.rekorUrl.getD ""
  included : (spec.configuration.getD {}).included = c.included
  excluded : (spec.configuration.getD {}).excluded = c.excluded
  collections : (spec.configuration.getD {}).collections = c.collections
  nonBlocking : (spec.exceptions.getD {}).nonBlocking = c.nonBlocking

/-- The caller gives no other key and no other log than a context has, and no unusable time. -/
structure Unopposed (c : PolicyContext) (o : Overrides) : Prop where
  publicKey : Missing o.publicKey ∨ o.publicKey = some c.publicKey
  rekorUrl : Missing o.rekorUrl ∨ o.rekorUrl = c.rekorUrl
  effectiveTime : ∀ text, o.effectiveTime = some text → ¬Unusable text

/-- A context is built again from what it is made of, at any time. -/
def Stable (c : PolicyContext) : Prop :=
  ∀ clock spec o, c.Restated spec → c.Unopposed o → ∃ d, new clock spec o = .ok d ∧ c.SameTerms d

/-- What becomes of a policy and overrides when the clock shows an instant. -/
structure Construction (clock : Instant) (spec : PolicySpec) (o : Overrides) : Prop where
  /-- The policy is at fault just if there is no key, whatever time is asked for. -/
  policy_iff : ∀ fault, new clock spec o = .error (.policy fault) ↔
    Keyless spec o ∧ fault = .noPublicKey
  /-- The time is at fault just if there is a key, and a text for the time that is unusable. -/
  time_iff : ∀ text, (∃ fault, new clock spec o = .error (.effectiveTime text fault)) ↔
    ¬Keyless spec o ∧ o.effectiveTime = some text ∧ Unusable text
  /-- Otherwise there is a context. -/
  built : ¬Keyless spec o → (∀ text, o.effectiveTime = some text → ¬Unusable text) →
    ∃ c, new clock spec o = .ok c ∧ c.BuiltFrom clock spec o ∧ c.Stable

variable {clock : Instant} {spec : PolicySpec} {o : Overrides} {c : PolicyContext}
  {time : EffectiveTime}

/-- **There is no key, or there is no time, or there is a context.** -/
theorem new_cases (clock : Instant) (spec : PolicySpec) (o : Overrides) :
    Keyless spec o ∧ new clock spec o = .error (.policy .noPublicKey) ∨
    (¬Keyless spec o ∧ ∃ text fault, o.effectiveTime = some text ∧ Unusable text ∧
      new clock spec o = .error (.effectiveTime text fault)) ∨
    ¬Keyless spec o ∧ (∀ text, o.effectiveTime = some text → ¬Unusable text) ∧
      ∃ time, requestedTime clock o.effectiveTime = .ok time ∧
        new clock spec o = .ok (ofSpec spec o time) := by
  rw [new_eq]
  by_cases hkey : Keyless spec o
  · exact .inl ⟨hkey, if_pos (overridden_eq_empty_iff.mpr hkey)⟩
  · rw [if_neg (mt overridden_eq_empty_iff.mp hkey)]
    rcases requestedTime_cases clock o.effectiveTime with
      ⟨hmissing, htime⟩ | ⟨text, i, htext, hasks, htime⟩ | ⟨text, fault, htext, hnot, htime⟩ <;>
      rw [htime]
    · refine .inr (.inr ⟨hkey, fun text htext hnot => ?_, _, rfl, rfl⟩)
      exact not_missing_iff.mpr ⟨text, htext, hnot.filled⟩ hmissing
    · refine .inr (.inr ⟨hkey, fun other hother hnot => hasks.usable.2 ?_, _, rfl, rfl⟩)
      rwa [Option.some.inj (htext.symm.trans hother)]
    · exact .inr (.inl ⟨hkey, text, fault, htext, hnot, rfl⟩)

/-- With a key and a usable time there is a context. -/
theorem exists_new (clock : Instant) (hkey : ¬Keyless spec o)
    (husable : ∀ text, o.effectiveTime = some text → ¬Unusable text) :
    ∃ time, requestedTime clock o.effectiveTime = .ok time ∧
      new clock spec o = .ok (ofSpec spec o time) := by
  rcases new_cases clock spec o with
    ⟨hkeyless, -⟩ | ⟨-, text, fault, htext, hnot, -⟩ | ⟨-, -, hnew⟩
  · exact absurd hkeyless hkey
  · exact absurd hnot (husable text htext)
  · exact hnew

/-- A time that is asked for stands in for now, or it is pinned. -/
theorem origin_of_requestedTime {value : Option String}
    (h : requestedTime clock value = .ok time) :
    Missing value ∧ time = .now clock ∨
      ¬Missing value ∧ ∃ text i, value = some text ∧ Asks clock text i ∧ time = .pinned i := by
  rcases requestedTime_cases clock value with
    ⟨hmissing, htime⟩ | ⟨text, i, htext, hasks, htime⟩ | ⟨text, fault, -, -, htime⟩
  · exact .inl ⟨hmissing, Except.ok.inj (h.symm.trans htime)⟩
  · refine .inr ⟨?_, text, i, htext, hasks, Except.ok.inj (h.symm.trans htime)⟩
    exact not_missing_iff.mpr ⟨text, htext, hasks.usable.1⟩
  · cases h.symm.trans htime

theorem builtFrom_ofSpec (htime : requestedTime clock o.effectiveTime = .ok time) :
    (ofSpec spec o time).BuiltFrom clock spec o := by
  have horigin := origin_of_requestedTime htime
  -- what is left is said of the time, and it is settled by where the time comes from
  refine ⟨chosen_overridden _ _, ⟨_, chosen_overridden _ _, rfl⟩, ?_, ?_, ?_,
    condensed_firstOccurrences _, condensed_firstOccurrences _, condensed_firstOccurrences _,
    condensed_firstOccurrences _, rfl⟩ <;>
    rcases horigin with ⟨hmissing, rfl⟩ | ⟨hfilled, text, i, htext, hasks, rfl⟩
  · exact iff_of_true rfl hmissing
  · exact iff_of_false nofun hfilled
  · exact iff_of_true (fun _ => rfl) hmissing
  · exact iff_of_false (fun h => nomatch h i) hfilled
  · exact iff_of_false (fun ⟨_, _, _, _, h⟩ => nomatch h) (not_not.mpr hmissing)
  · exact iff_of_true ⟨text, i, htext, hasks, rfl⟩ hfilled

theorem rekorUrl_ofSpec (spec : PolicySpec) (o : Overrides) (time : EffectiveTime) :
    (ofSpec spec o time).rekorUrl = if overridden o.rekorUrl spec.rekorUrl = "" then none
      else some (overridden o.rekorUrl spec.rekorUrl) := rfl

/-- **A context is built again** if it has a key, no empty log and no repetitions in its lists. -/
theorem stable (hkey : c.publicKey ≠ "") (hlog : c.rekorUrl ≠ some "")
    (hincluded : c.included.Nodup) (hexcluded : c.excluded.Nodup)
    (hcollections : c.collections.Nodup) (hnonBlocking : c.nonBlocking.Nodup) : c.Stable := by
  intro clock spec o hspec ho
  have hpublicKey : overridden o.publicKey spec.publicKey = c.publicKey := by
    rw [hspec.publicKey]
    exact overridden_self ho.publicKey
  have hrekorUrl : overridden o.rekorUrl spec.rekorUrl = c.rekorUrl.getD "" := by
    rw [hspec.rekorUrl]
    refine overridden_self ?_
    cases hurl : c.rekorUrl with
    | none => exact .inl (ho.rekorUrl.elim id fun h => .inl (h.trans hurl))
    | some url => exact ho.rekorUrl.imp_right fun h => h.trans hurl
  have hkeyed : ¬Keyless spec o := by
    intro hkeyless
    exact hkey (hpublicKey ▸ overridden_eq_empty_iff.mpr hkeyless)
  have hlist : ∀ {own list : List String}, own = list → list.Nodup →
      firstOccurrences own = list := by
    rintro own _ rfl hnodup
    exact firstOccurrences_of_nodup hnodup
  obtain ⟨time, hnew⟩ := exists_new clock hkeyed ho.effectiveTime
  refine ⟨_, hnew.2, hpublicKey, ?_, hlist hspec.included hincluded,
    hlist hspec.excluded hexcluded, hlist hspec.collections hcollections,
    hlist hspec.nonBlocking hnonBlocking⟩
  rw [rekorUrl_ofSpec, hrekorUrl]
  cases hurl : c.rekorUrl with
  | none => rfl
  | some url =>
    have hfilled : url ≠ "" := fun hempty => hlog (hurl.trans (congrArg some hempty))
    exact if_neg hfilled

theorem stable_ofSpec (hkey : ¬Keyless spec o) : (ofSpec spec o time).Stable := by
  refine stable (mt overridden_eq_empty_iff.mp hkey) ?_ (condensed_firstOccurrences _).nodup
    (condensed_firstOccurrences _).nodup (condensed_firstOccurrences _).nodup
    (condensed_firstOccurrences _).nodup
  rw [rekorUrl_ofSpec]
  split
  · exact nofun
  · next hfilled => exact fun h => hfilled (Option.some.inj h)

/-- **A context is built just if there is a key and a usable time**, and the lack of a key is found
first. -/
theorem new_exact (clock : Instant) (spec : PolicySpec) (o : Overrides) :
    Construction clock spec o where
  policy_iff fault := by
    rcases new_cases clock spec o with ⟨hkeyless, hnew⟩ | ⟨hkey, text, _, -, -, hnew⟩ |
      ⟨hkey, -, time, -, hnew⟩ <;> rw [hnew]
    · rw [and_iff_right hkeyless, Except.error.injEq, ContextFault.policy.injEq, eq_comm]
    · exact iff_of_false nofun fun h => hkey h.1
    · exact iff_of_false nofun fun h => hkey h.1
  time_iff text := by
    rcases new_cases clock spec o with ⟨hkeyless, hnew⟩ | ⟨hkey, other, fault, hother, hnot, hnew⟩ |
      ⟨hkey, husable, time, -, hnew⟩ <;> rw [hnew]
    · exact iff_of_false (fun ⟨_, h⟩ => nomatch h) fun h => h.1 hkeyless
    · constructor
      · rintro ⟨_, heq⟩
        cases heq
        exact ⟨hkey, hother, hnot⟩
      · rintro ⟨-, htext, -⟩
        cases hother.symm.trans htext
        exact ⟨fault, rfl⟩
    · exact iff_of_false (fun ⟨_, h⟩ => nomatch h) fun ⟨_, htext, hnot⟩ => husable text htext hnot
  built hkey husable := by
    obtain ⟨time, htime, hnew⟩ := exists_new clock hkey husable
    exact ⟨_, hnew, builtFrom_ofSpec htime, stable_ofSpec hkey⟩

/-- Where there is no key, it does not matter that the time is none either. -/
example (clock : Instant) : new clock {} { effectiveTime := some "tomorrow" } =
    .error (.policy .noPublicKey) := rfl

end PolicyContext
end ImagePolicy
