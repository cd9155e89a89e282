/-
# Only the contract counts

Of the metadata of a result four keys count, and of these only values that can be used: a code and a
term with characters, collections that are strings in a list, and a date in the form of effective
dates. Results that agree on these read alike (`RuleResult.ReadsLike`); in particular a result reads
like its usable values alone, whatever it says beside them (`RuleResult.readsLike_distilled`).

Results that read alike meet the same fate: they stay, they are demoted, or they are dropped. So
two groups whose results read alike, bucket by bucket and place by place, are cut by one and the
same list of fates (`CheckGroup.Fated`), and what is not dropped is passed on as it was.

Key definitions: `RuleResult.ReadsLike`, `RuleResult.distilled`, `Fate`, `CheckGroup.Fated`.
Key theorems: `RuleResult.ReadsLike.kept_iff`, `RuleResult.ReadsLike.notYet_iff`,
`Classifier.classification_contracted`.
-/
import ImagePolicy.Proofs.Rule.Selection
import Mathlib.Data.List.Forall2

namespace ImagePolicy

open Json (Value Members)

/-! ### What is read of a result -/

namespace RuleResult

/-- A result says in a usable way when it starts to block. -/
def Starts (r : RuleResult) (start : Instant) : Prop :=
  ∃ text, r.Says "effective_on" text ∧ EffectiveDate.parseString? text = some start

/-- A result belongs to a collection, which its list of them names. -/
def Belongs (r : RuleResult) (name : String) : Prop :=
  ∃ items, r.metadata.lookup "collections" = some (.list items) ∧ .text name ∈ items

/-- Two results agree on the usable values of the four keys. What cannot be used is as good as
missing. -/
structure ReadsLike (r s : RuleResult) : Prop where
  code : ∀ text, text ≠ "" → (r.Says "code" text ↔ s.Says "code" text)
  term : ∀ text, text ≠ "" → (r.Says "term" text ↔ s.Says "term" text)
  collections : ∀ name, r.Belongs name ↔ s.Belongs name
  starts : ∀ start, r.Starts start ↔ s.Starts start

variable {c : PolicyContext} {r s : RuleResult}

theorem filledString?_congr {key : String}
    (h : ∀ text, text ≠ "" → (r.Says key text ↔ s.Says key text)) :
    r.filledString? key = s.filledString? key := by
  refine Option.ext fun text => ?_
  rw [filledString?_eq_some_iff, filledString?_eq_some_iff]
  exact and_congr_right (h text)

namespace ReadsLike

/-- Results that read alike have the same matchers. -/
theorem matches_iff (h : r.ReadsLike s) (m : String) : r.Matches m ↔ s.Matches m := by
  have hcode : r.code = s.code := filledString?_congr h.code
  have hterm : r.term = s.term := filledString?_congr h.term
  have hmatchers : r.matchers = s.matchers := by
    simp only [matchers, termMatchers, codeMatchers, hcode, hterm]
  rw [← mem_matchers_iff, ← mem_matchers_iff, hmatchers]

theorem inCollection_iff (h : r.ReadsLike s) : r.InCollection c ↔ s.InCollection c := by
  have hbelongs : ∀ r : RuleResult, r.InCollection c ↔ ∃ name ∈ c.collections, r.Belongs name := by
    intro r
    constructor
    · rintro ⟨items, hitems, name, hname, hmem⟩
      exact ⟨name, hname, items, hitems, hmem⟩
    · rintro ⟨name, hname, items, hitems, hmem⟩
      exact ⟨items, hitems, name, hname, hmem⟩
  simp only [hbelongs, h.collections]

/-- A context keeps both of two results that read alike, or neither. -/
theorem kept_iff (h : r.ReadsLike s) : Kept c r ↔ Kept c s := by
  have hselects : c.Selects r ↔ c.Selects s := by
    simp only [PolicyContext.Selects, h.inCollection_iff, h.matches_iff]
  rw [ImagePolicy.kept_iff, ImagePolicy.kept_iff, hselects]
  simp only [h.matches_iff]

/-- Of two results that read alike both start to block after an instant, or neither. -/
theorem notYet_iff (h : r.ReadsLike s) {moment : Instant} : NotYet moment r ↔ NotYet moment s := by
  have hstarts : ∀ r : RuleResult, NotYet moment r ↔ ∃ start, r.Starts start ∧ moment < start := by
    intro r
    constructor
    · rintro ⟨text, start, hsays, hstart, hafter⟩
      exact ⟨start, ⟨text, hsays, hstart⟩, hafter⟩
    · rintro ⟨start, ⟨text, hsays, hstart⟩, hafter⟩
      exact ⟨text, start, hsays, hstart, hafter⟩
  simp only [hstarts, h.starts]

end ReadsLike

/-! ### The usable values alone -/

/-- What can be used of the value under a key; of collections these are the strings. -/
def usable? : String → Value → Option Value
  | "code", .text text | "term", .text text => if text = "" then none else some (.text text)
  | "collections", .list items => some (.list (items.filter Value.isText))
  | "effective_on", .text text =>
    if (EffectiveDate.parseString? text).isSome then some (.text text) else none
  | _, _ => none

/-- The usable values of a result, under a message. -/
def distilled (r : RuleResult) (message : String) : RuleResult where
  message := message
  metadata := ["code", "term", "collections", "effective_on"].filterMap fun key =>
    ((r.get? key).bind (usable? key)).map (key, ·)

variable {v : Value} {text : String}

theorem usable?_filled_iff {key : String} (hkey : key = "code" ∨ key = "term") :
    usable? key v = some (.text text) ↔ v = .text text ∧ text ≠ "" := by
  rcases hkey with rfl | rfl <;> cases v <;> simp [usable?] <;> grind

theorem usable?_collections_iff {items : List Value} :
    usable? "collections" v = some (.list items) ↔
      ∃ all, v = .list all ∧ items = all.filter Value.isText := by
  cases v <;> simp [usable?, eq_comm]

theorem usable?_effectiveOn_iff : usable? "effective_on" v = some (.text text) ↔
    v = .text text ∧ (EffectiveDate.parseString? text).isSome = true := by
  cases v <;> simp [usable?]
  grind

/-- Under each of the four keys stands what can be used of what stood there. -/
theorem lookup_distilled {key : String} {w : Value} (message : String)
    (hkey : key ∈ ["code", "term", "collections", "effective_on"]) :
    (r.distilled message).metadata.lookup key = some w ↔
      ∃ v, r.metadata.lookup key = some v ∧ usable? key v = some w := by
  rw [distilled, Json.lookup_filterMap hkey, Option.bind_eq_some_iff]
  rfl

/-- **A result reads like its usable values alone**, under whatever message. -/
theorem readsLike_distilled (r : RuleResult) (message : String) :
    r.ReadsLike (r.distilled message) := by
  have hfilled : ∀ key, key = "code" ∨ key = "term" → ∀ text, text ≠ "" →
      (r.Says key text ↔ (r.distilled message).Says key text) := by
    intro key hkey text htext
    have hmem : key ∈ ["code", "term", "collections", "effective_on"] := by
      rcases hkey with rfl | rfl <;> decide
    rw [Says, Says, lookup_distilled message hmem]
    simp only [usable?_filled_iff hkey]
    constructor
    · exact fun hsays => ⟨_, hsays, rfl, htext⟩
    · rintro ⟨_, hsays, rfl, -⟩
      exact hsays
  refine ⟨hfilled _ (.inl rfl), hfilled _ (.inr rfl), fun name => ?_, fun start => ?_⟩
  · unfold Belongs
    simp only [lookup_distilled message (by decide : "collections" ∈ _), usable?_collections_iff]
    constructor
    · rintro ⟨items, hitems, hname⟩
      exact ⟨_, ⟨_, hitems, _, rfl, rfl⟩, List.mem_filter.mpr ⟨hname, rfl⟩⟩
    · rintro ⟨_, ⟨_, hitems, items, rfl, rfl⟩, hname⟩
      exact ⟨items, hitems, (List.mem_filter.mp hname).1⟩
  · unfold Starts Says
    simp only [lookup_distilled message (by decide : "effective_on" ∈ _), usable?_effectiveOn_iff]
    constructor
    · rintro ⟨text, hsays, hstart⟩
      exact ⟨text, ⟨_, hsays, rfl, by rw [hstart]; rfl⟩, hstart⟩
    · rintro ⟨text, ⟨_, hsays, rfl, -⟩, hstart⟩
      exact ⟨text, hsays, hstart⟩

end RuleResult

/-! ### The fates of a group -/

/-- What becomes of a result: it stays where it is, or it goes behind the warnings, or it goes. -/
inductive Fate where
  | stays
  | demoted
  | dropped
  deriving DecidableEq

/-- The results of a list that meet a fate, each as it is, in their order. -/
def Fate.picks (fate : Fate) (fates : List Fate) (rs : List RuleResult) : List RuleResult :=
  ((fates.zip rs).filter fun p => p.1 = fate).map Prod.snd

/-- What meets a fate of a list of fates that a function gives is what the function sends there. -/
theorem Fate.picks_map (fate : Fate) (f : RuleResult → Fate) (rs : List RuleResult) :
    fate.picks (rs.map f) rs = rs.filter fun r => f r = fate := by
  have hzip : (rs.map f).zip rs = rs.map fun r => (f r, r) := by
    have hboth : (rs.map f).zip (rs.map id) = rs.map fun r => (f r, id r) := List.zip_map'
    rwa [List.map_id] at hboth
  rw [picks, hzip, List.filter_map, List.map_map]
  exact List.map_id _

namespace CheckGroup

/-- A group that is left of another, if its warnings and failures meet these fates. Of the warnings
none is demoted, for they are where the demoted failures go. -/
structure Fated (warnings failures : List Fate) (g out : CheckGroup) : Prop where
  filename : out.filename = g.filename
  ruleNamespace : out.ruleNamespace = g.ruleNamespace
  successes : out.successes = g.successes
  everyWarning : warnings.length = g.warnings.length
  everyFailure : failures.length = g.failures.length
  notDemoted : Fate.demoted ∉ warnings
  outWarnings : out.warnings =
    Fate.stays.picks warnings g.warnings ++ Fate.demoted.picks failures g.failures
  outFailures : out.failures = Fate.stays.picks failures g.failures

/-- The results of two groups read alike, bucket by bucket and place by place. -/
structure ReadsLike (g h : CheckGroup) : Prop where
  successes : List.Forall₂ RuleResult.ReadsLike g.successes h.successes
  warnings : List.Forall₂ RuleResult.ReadsLike g.warnings h.warnings
  failures : List.Forall₂ RuleResult.ReadsLike g.failures h.failures

end CheckGroup

namespace Classifier

variable (c : PolicyContext)

/-- What becomes of a warning. -/
def warningFate (r : RuleResult) : Fate :=
  if Kept c r then .stays else .dropped

/-- What becomes of a failure. -/
def failureFate (r : RuleResult) : Fate :=
  if Kept c r then (if NotYet c.instant r then .demoted else .stays) else .dropped

variable {c} {r : RuleResult}

theorem warningFate_eq_stays_iff : warningFate c r = .stays ↔ Kept c r := by
  rw [warningFate]
  by_cases hkept : Kept c r <;> simp [hkept]

theorem failureFate_eq_stays_iff :
    failureFate c r = .stays ↔ Kept c r ∧ ¬NotYet c.instant r := by
  rw [failureFate]
  by_cases hkept : Kept c r <;> by_cases hlater : NotYet c.instant r <;> simp [hkept, hlater]

theorem failureFate_eq_demoted_iff :
    failureFate c r = .demoted ↔ Kept c r ∧ NotYet c.instant r := by
  rw [failureFate]
  by_cases hkept : Kept c r <;> by_cases hlater : NotYet c.instant r <;> simp [hkept, hlater]

theorem warningFate_ne_demoted : warningFate c r ≠ .demoted := by
  rw [warningFate]
  by_cases hkept : Kept c r <;> simp [hkept]

variable (c)

/-- Classification gives every warning and every failure its fate. -/
theorem classifyGroup_fated (g : CheckGroup) :
    CheckGroup.Fated (g.warnings.map (warningFate c)) (g.failures.map (failureFate c)) g
      ((ofContext c).classifyGroup g) where
  filename := rfl
  ruleNamespace := rfl
  successes := rfl
  everyWarning := List.length_map _
  everyFailure := List.length_map _
  notDemoted := by
    intro hmem
    obtain ⟨r, -, hr⟩ := List.mem_map.mp hmem
    exact warningFate_ne_demoted hr
  outWarnings := by
    rw [classifyGroup_warnings, Fate.picks_map, Fate.picks_map]
    simp only [warningFate_eq_stays_iff, failureFate_eq_demoted_iff]
  outFailures := by
    rw [classifyGroup_failures, Fate.picks_map]
    simp only [failureFate_eq_stays_iff]

/-- Results that read alike meet the same fates. -/
theorem map_fate_congr {f : RuleResult → Fate}
    (hf : ∀ {r s : RuleResult}, r.ReadsLike s → f r = f s) {rs ss : List RuleResult}
    (h : List.Forall₂ RuleResult.ReadsLike rs ss) : rs.map f = ss.map f := by
  induction h with
  | nil => rfl
  | cons hrs _ ih => rw [List.map_cons, List.map_cons, hf hrs, ih]

/-- **Only the contract counts.** Of two groups whose results read alike, whatever else the results
say, corresponding results stay, are demoted and are dropped, and what stays or is demoted is passed
on as it was. -/
theorem classification_contracted (g h : CheckGroup) (hlike : g.ReadsLike h) :
    ∃ warnings failures,
      CheckGroup.Fated warnings failures g ((ofContext c).classifyGroup g) ∧
      CheckGroup.Fated warnings failures h ((ofContext c).classifyGroup h) := by
  have hwarnings : g.warnings.map (warningFate c) = h.warnings.map (warningFate c) := by
    refine map_fate_congr (fun hrs => ?_) hlike.warnings
    simp only [warningFate, hrs.kept_iff]
  have hfailures : g.failures.map (failureFate c) = h.failures.map (failureFate c) := by
    refine map_fate_congr (fun hrs => ?_) hlike.failures
    simp only [failureFate, hrs.kept_iff, hrs.notYet_iff]
  have hfated := classifyGroup_fated c h
  rw [← hwarnings, ← hfailures] at hfated
  exact ⟨_, _, classifyGroup_fated c g, hfated⟩

/-- A failure that is late, with an empty term and a collection that is no string, and one whose
code is no string and whose date is none; and the same without what cannot be used. -/
theorem classification_contracted_wrong_kinds :
    let c : PolicyContext := ⟨"key", none, [], ["b"], [], [], [], .pinned ⟨1654041600, 0⟩⟩
    let late : RuleResult := {
      message := "late"
      metadata := [("code", .text "a.x"), ("collections", .list [.null, .text "minimal"]),
        ("effective_on", .text "2023-01-01T00:00:00Z"), ("term", .text "")] }
    let odd : RuleResult := {
      message := "odd"
      metadata := [("code", .bool true), ("effective_on", .text "tomorrow"), ("other", .null)] }
    let g : CheckGroup := { warnings := [odd], failures := [late, odd] }
    let h : CheckGroup := {
      filename := "other"
      warnings := [{ message := "" }]
      failures := [
        { message := "later"
          metadata := [("code", .text "a.x"), ("collections", .list [.text "minimal"]),
            ("effective_on", .text "2023-01-01T00:00:00Z")] },
        { message := "odd" }] }
    g.ReadsLike h ∧ ∃ warnings failures,
      CheckGroup.Fated warnings failures g ((ofContext c).classifyGroup g) ∧
      CheckGroup.Fated warnings failures h ((ofContext c).classifyGroup h) := by
  intro c late odd g h
  have hodd : ∀ message, odd.ReadsLike { message := message } := by
    intro message
    have hdate : (odd.get? "effective_on").bind (RuleResult.usable? "effective_on") = none := by
      have hnone : ¬(EffectiveDate.parseString? "tomorrow").isSome = true := by decide +kernel
      show (if (EffectiveDate.parseString? "tomorrow").isSome then some (Value.text "tomorrow")
        else none) = none
      rw [if_neg hnone]
    have hdistilled : odd.distilled message = { message := message } := by
      rw [RuleResult.distilled, List.filterMap_cons, List.filterMap_cons, List.filterMap_cons,
        List.filterMap_cons, hdate]
      rfl
    exact hdistilled ▸ odd.readsLike_distilled message
  have hlate : late.ReadsLike
      { message := "later"
        metadata := [("code", .text "a.x"), ("collections", .list [.text "minimal"]),
          ("effective_on", .text "2023-01-01T00:00:00Z")] } := by
    have hdate : (late.get? "effective_on").bind (RuleResult.usable? "effective_on") =
        some (.text "2023-01-01T00:00:00Z") := by
      have hsome : (EffectiveDate.parseString? "2023-01-01T00:00:00Z").isSome = true := by
        decide +kernel
      exact RuleResult.usable?_effectiveOn_iff.mpr ⟨rfl, hsome⟩
    have hdistilled := late.readsLike_distilled "later"
    rw [RuleResult.distilled, List.filterMap_cons, List.filterMap_cons, List.filterMap_cons,
      List.filterMap_cons, hdate] at hdistilled
    exact hdistilled
  have hlike : g.ReadsLike h :=
    ⟨.nil, .cons (hodd "") .nil, .cons hlate (.cons (hodd "odd") .nil)⟩
  exact ⟨hlike, classification_contracted c g h hlike⟩

end Classifier
end ImagePolicy
