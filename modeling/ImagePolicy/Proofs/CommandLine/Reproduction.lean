/-
# A classification that is done again

A classification is judged at the time of the attestations, unless the request names a time. What
is printed of that time is cut to whole seconds, and a request that names it is judged at the whole
second. That makes no difference: the context is the same but for the time, effective dates are
whole seconds themselves, and the time is printed as before. Only a time in a year that does not
have four digits cannot be named, and then nothing is classified.

Key definitions: `CommandLine.keyedPolicy`, `CommandLine.ofPolicy`,
`CommandLine.ClassifyRequest.named`.
Key theorems: `RuleResult.effectiveAt_wholeSeconds`, `CommandLine.printed_wholeSeconds`,
`CommandLine.requestedContext_eq`, `CommandLine.attestationTime_printed`,
`CommandLine.classify_begins`, `CommandLine.classify_named`, `CommandLine.answer_reproduced`.
-/
import ImagePolicy.Proofs.CommandLine.Printing
import ImagePolicy.Proofs.Attestation.Governing
import ImagePolicy.Proofs.Policy.Timing
import ImagePolicy.Proofs.Time.WholeSeconds

namespace ImagePolicy

/-! ### Judging at the whole second -/

/-- Whether a failure blocks is the same at an instant and at its whole second. -/
theorem RuleResult.effectiveAt_wholeSeconds (r : RuleResult) (i : Instant) :
    r.effectiveAt i.wholeSeconds = r.effectiveAt i := by
  unfold effectiveAt
  cases he : r.effectiveOn with
  | absent => rfl
  | invalid text => rfl
  | on a =>
    have hwhole : a.nano = 0 ∨ a.nano = nanosPerSecond := by
      unfold effectiveOn at he
      split at he
      · cases he
      · split at he
        · next hparse =>
          cases he
          exact EffectiveDate.nano_of_parse? hparse
        · cases he
      · cases he
    exact decide_eq_decide.mpr (Instant.le_wholeSeconds_iff hwhole)

namespace Classifier

theorem classifyGroup_wholeSeconds (selection : RuleSelection) (i : Instant) (g : CheckGroup) :
    classifyGroup ⟨selection, i.wholeSeconds⟩ g = classifyGroup ⟨selection, i⟩ g := by
  simp only [classifyGroup, RuleResult.effectiveAt_wholeSeconds]

theorem classify?_wholeSeconds (selection : RuleSelection) (i : Instant) (gs : List CheckGroup) :
    classify? ⟨selection, i.wholeSeconds⟩ gs = classify? ⟨selection, i⟩ gs := by
  have hgroup : classifyGroup ⟨selection, i.wholeSeconds⟩ = classifyGroup ⟨selection, i⟩ :=
    funext (classifyGroup_wholeSeconds selection i)
  simp only [classify?, hgroup]

end Classifier

namespace CommandLine

theorem secondsText_wholeSeconds (i : Instant) : i.wholeSeconds.secondsText = i.secondsText :=
  congrArg String.ofList (Instant.renderSeconds_wholeSeconds i)

/-- A context has only its time in what is printed. -/
theorem plainText_congr {c c' : PolicyContext}
    (h : c'.instant.secondsText = c.instant.secondsText) (groups : List CheckGroup)
    (passed : Bool) : plainText c' groups passed = plainText c groups passed := by
  unfold plainText
  rw [h]

theorem jsonText_congr {c c' : PolicyContext}
    (h : c'.instant.secondsText = c.instant.secondsText) (groups : List CheckGroup)
    (passed : Bool) : jsonText c' groups passed = jsonText c groups passed := by
  unfold jsonText
  rw [h]

/-- **The same is printed of the whole second as of the instant.** -/
theorem printed_wholeSeconds (json : Bool) {c c' : PolicyContext} (groups : List CheckGroup)
    (d : Disk) (hselection : RuleSelection.ofContext c' = RuleSelection.ofContext c)
    (hinstant : c'.instant = c.instant.wholeSeconds) :
    printed json c' groups d = printed json c groups d := by
  have hclassify : (Classifier.ofContext c').classify? groups =
      (Classifier.ofContext c).classify? groups := by
    rw [Classifier.ofContext, hselection, hinstant]
    exact Classifier.classify?_wholeSeconds _ _ _
  have htext : c'.instant.secondsText = c.instant.secondsText := by
    rw [hinstant, secondsText_wholeSeconds]
  unfold printed
  rw [hclassify]
  cases (Classifier.ofContext c).classify? groups with
  | none => rfl
  | some classified => simp only [plainText_congr htext, jsonText_congr htext]

/-! ### The context of a request -/

/-- The policy of a request, which has to have a key. -/
def keyedPolicy (d : Disk) (r : ClassifyRequest) : Except ContextFault PolicySpec :=
  match PolicySpec.load d.readText? r.policy with
  | .error fault => .error (.policy fault)
  | .ok spec =>
    if overridden r.publicKey spec.publicKey = "" then .error (.policy .noPublicKey) else .ok spec

/-- The context of a request, whose policy is known, with a time. -/
def ofPolicy (r : ClassifyRequest) (time : EffectiveTime) (spec : PolicySpec) : PolicyContext :=
  .ofSpec spec { publicKey := r.publicKey } time

/-- The wording of a context that cannot be made. -/
def contextError (fault : ContextFault) : String :=
  (VerificationError.ofContext fault).message?.getD ""

/-- A request has a context if it has a policy with a key, and a time. -/
theorem requestedContext_eq (clock : Instant) (d : Disk) (r : ClassifyRequest) :
    requestedContext clock d r = ((keyedPolicy d r).bind fun spec =>
      (requestedTime clock r.effectiveTime).map fun time => ofPolicy r time spec).mapError
        contextError := by
  unfold requestedContext keyedPolicy
  cases PolicySpec.load d.readText? r.policy with
  | error fault => rfl
  | ok spec =>
    have hnew := PolicyContext.new_eq clock spec
      { publicKey := r.publicKey, rekorUrl := none, effectiveTime := r.effectiveTime }
    refine (congrArg (Except.mapError contextError) hnew).trans ?_
    by_cases hkey : overridden r.publicKey spec.publicKey = ""
    · rw [if_pos hkey]
      simp only [if_pos hkey]
      rfl
    · rw [if_neg hkey]
      simp only [if_neg hkey]
      rfl

/-- A request whose time is known has its context from the policy. -/
theorem requestedContext_of_time {clock : Instant} {d : Disk} {r : ClassifyRequest}
    {time : EffectiveTime} (h : requestedTime clock r.effectiveTime = .ok time) :
    requestedContext clock d r =
      ((keyedPolicy d r).map (ofPolicy r time)).mapError contextError := by
  rw [requestedContext_eq, h]
  cases keyedPolicy d r <;> rfl

/-- A request for a time that is none has no context. -/
theorem requestedContext_of_fault {clock : Instant} {d : Disk} {r : ClassifyRequest}
    {fault : ContextFault} (h : requestedTime clock r.effectiveTime = .error fault) :
    ∃ err, requestedContext clock d r = .error err := by
  rw [requestedContext_eq, h]
  cases keyedPolicy d r <;> exact ⟨_, rfl⟩

/-! ### Times that were printed -/

/-- A time that was printed is not one of the texts that ask for another time. -/
theorem secondsText_ne (i : Instant) : i.secondsText ≠ "" ∧ i.secondsText ≠ "now" := by
  have hlength : 19 ≤ i.secondsText.toList.length := by
    rw [Instant.secondsText, String.toList_ofList]
    exact Rfc3339.leastBytes_le_renderSeconds i
  constructor <;> intro h <;> rw [h] at hlength <;> simp at hlength

/-- Asking for a time that was printed pins its whole second, in a year with four digits. -/
theorem requestedTime_secondsText {i : Instant} (clock : Instant) (hvalid : i.Valid)
    (h0 : 0 ≤ i.date.year) (h1 : i.date.year ≤ 9999) :
    requestedTime clock (some i.secondsText) = .ok (.pinned i.wholeSeconds) := by
  have hparse : Rfc3339.parseString i.secondsText = .ok i.wholeSeconds := by
    rw [Rfc3339.parseString, Instant.secondsText, String.toList_ofList]
    exact Rfc3339.parse_renderSeconds hvalid h0 h1
  rw [PolicyContext.requestedTime_some clock (secondsText_ne i).1, if_neg (secondsText_ne i).2,
    hparse]

/-- A time that was printed in any other year cannot be asked for. -/
theorem requestedTime_secondsText_of_signed {i : Instant} (clock : Instant)
    (h : i.date.year < 0 ∨ 9999 < i.date.year) :
    ∃ fault, requestedTime clock (some i.secondsText) = .error fault := by
  obtain ⟨fault, hparse⟩ := Rfc3339.parse_renderSeconds_of_signed h
  have hparse : Rfc3339.parseString i.secondsText = .error fault := by
    rw [Rfc3339.parseString, Instant.secondsText, String.toList_ofList]
    exact hparse
  refine ⟨.effectiveTime i.secondsText fault, ?_⟩
  rw [PolicyContext.requestedTime_some clock (secondsText_ne i).1, if_neg (secondsText_ne i).2,
    hparse]

/-! ### The time that attestations are printed with -/

/-- The time of attestations exists, since it was read. -/
theorem valid_of_attestationTime? {as : List Attestation} {i : Instant}
    (h : attestationTime? as = some i) : i.Valid := by
  obtain ⟨a, -, hbuild⟩ := exists_build_of_time h
  unfold Attestation.buildFinishedOn at hbuild
  split at hbuild
  · split at hbuild
    · next text _ =>
      cases hparse : Rfc3339.parseString text with
      | error fault =>
        rw [hparse] at hbuild
        cases hbuild
      | ok j =>
        rw [hparse] at hbuild
        cases hbuild
        exact Rfc3339.valid_of_parse hparse
    · cases hbuild
  · cases hbuild

/-- **What is printed for attestations is their time**, if anything is printed. -/
theorem attestationTime_printed {file : String} {d : Disk} {text : String}
    (hstatus : (attestationTime file d).status = 0)
    (hprinted : (attestationTime file d).output = text ++ "\n") :
    ∃ as i, statementsOf d file = .ok as ∧ attestationTime? as = some i ∧ i.Valid ∧
      text = i.secondsText := by
  unfold attestationTime at hstatus hprinted
  cases has : statementsOf d file with
  | error err =>
    rw [has] at hstatus
    cases hstatus
  | ok as =>
    rw [has] at hstatus hprinted
    cases ht : attestationTime? as with
    | none =>
      simp only [ht] at hstatus
      cases hstatus
    | some i =>
      simp only [ht] at hprinted
      refine ⟨as, i, rfl, ht, valid_of_attestationTime? ht, ?_⟩
      rw [← String.toList_inj, String.toList_append, String.toList_append] at hprinted
      exact (String.toList_inj.mp (List.append_cancel_right hprinted)).symm

/-! ### Two requests -/

/-- A request that names a time, with attestations or without. -/
def ClassifyRequest.named (r : ClassifyRequest) (time : String) (attestations : Option String) :
    ClassifyRequest :=
  { r with effectiveTime := some time, attestations }

section Requests

variable {clock clock' : Instant} {host : Host} {d : Disk} {r : ClassifyRequest}
  {path file : String} {as : List Attestation} {i : Instant}

/-- Results from a file are printed in the context that a policy makes with the time that is known
of the request. -/
theorem classify_of_time {time : EffectiveTime} (hsource : r.source = .file path)
    (hstatements : requestedStatements d r = .ok as)
    (htime : requestedTime clock r.effectiveTime = .ok time) :
    classify host clock r d =
      match keyedPolicy d r with
      | .error fault => .failed (contextError fault) d
      | .ok spec =>
        match resultsOf d path with
        | .error err => .failed err d
        | .ok groups => printed r.json ((ofPolicy r time spec).attested as) groups d := by
  have hresults : ∀ c, requestedResults host r c as d = (resultsOf d path, d) := by
    intro c
    unfold requestedResults
    rw [hsource]
  unfold classify
  rw [hstatements, requestedContext_of_time htime]
  cases keyedPolicy d r with
  | error fault => rfl
  | ok spec =>
    simp only [Except.map, Except.mapError, hresults]
    cases resultsOf d path <;> rfl

/-- A request without a context fails, and prints nothing. -/
theorem classify_of_no_context {err : String} (h : requestedContext clock d r = .error err) :
    classify host clock r d = .failed err d := by
  unfold classify
  rw [h]

theorem selection_attested (c : PolicyContext) (as : List Attestation) :
    RuleSelection.ofContext (c.attested as) = RuleSelection.ofContext c := by
  rw [attested_eq]
  rfl

/-- The time of attestations is the time of a context that stands in for now. -/
theorem instant_attested (spec : PolicySpec) (ht : attestationTime? as = some i) :
    ((ofPolicy r (.now clock) spec).attested as).instant = i := by
  rw [attested_instant]
  simp [ofPolicy, PolicyContext.ofSpec, ht]

/-- No attestations change the time of a context that is pinned. -/
theorem instant_pinned (spec : PolicySpec) :
    ((ofPolicy r (.pinned i) spec).attested as).instant = i := by
  rw [attested_instant]
  rfl

/-- **A classification at the time of the attestations begins with this time**, if it prints
anything. -/
theorem classify_begins (hsource : r.source = .file path) (hfile : r.attestations = some file)
    (hunnamed : r.effectiveTime.getD "" = "") (has : statementsOf d file = .ok as)
    (ht : attestationTime? as = some i) :
    (classify host clock r d).status ≠ 0 ∧ (classify host clock r d).output = "" ∨
      Begins (timeHeading r.json i.secondsText) (classify host clock r d).output := by
  have hstatements : requestedStatements d r = .ok as := by
    rw [requestedStatements, hfile]
    exact has
  have htime := PolicyContext.requestedTime_of_empty clock hunnamed
  rw [classify_of_time hsource hstatements htime]
  cases keyedPolicy d r with
  | error fault => exact .inl ⟨Nat.one_ne_zero, rfl⟩
  | ok spec =>
    cases resultsOf d path with
    | error err => exact .inl ⟨Nat.one_ne_zero, rfl⟩
    | ok groups =>
      have hbegins := printed_begins r.json ((ofPolicy r (.now clock) spec).attested as) groups d
      rwa [instant_attested spec ht] at hbegins

/-- **Naming the time of the attestations gives the same answer** as leaving it to them. -/
theorem classify_named (hsource : r.source = .file path) (hfile : r.attestations = some file)
    (hunnamed : r.effectiveTime.getD "" = "") (has : statementsOf d file = .ok as)
    (ht : attestationTime? as = some i)
    (hnamed : requestedTime clock' (some i.secondsText) = .ok (.pinned i.wholeSeconds))
    {host' : Host} {attestations : Option String}
    (hattestations : attestations = none ∨ attestations = some file) :
    classify host' clock' (r.named i.secondsText attestations) d = classify host clock r d := by
  have hstatements : requestedStatements d r = .ok as := by
    rw [requestedStatements, hfile]
    exact has
  have hothers : ∃ bs, requestedStatements d (r.named i.secondsText attestations) = .ok bs := by
    rcases hattestations with rfl | rfl
    · exact ⟨[], rfl⟩
    · exact ⟨as, has⟩
  obtain ⟨bs, hothers⟩ := hothers
  have htime := PolicyContext.requestedTime_of_empty clock hunnamed
  have hpolicy : keyedPolicy d (r.named i.secondsText attestations) = keyedPolicy d r := rfl
  have hsource' : (r.named i.secondsText attestations).source = .file path := hsource
  have htime' : requestedTime clock' (r.named i.secondsText attestations).effectiveTime =
      .ok (.pinned i.wholeSeconds) := hnamed
  rw [classify_of_time hsource hstatements htime, classify_of_time hsource' hothers htime', hpolicy]
  cases keyedPolicy d r with
  | error fault => rfl
  | ok spec =>
    cases resultsOf d path with
    | error err => rfl
    | ok groups =>
      refine printed_wholeSeconds r.json groups d ?_ ?_
      · rw [selection_attested, selection_attested]
        rfl
      · rw [instant_pinned, instant_attested spec ht]

end Requests

/-- **A classification can be done again at the time that is printed.** -/
theorem answer_reproduced {host : Host} {clock₀ : Instant} (clock : Instant) {d : Disk}
    {file path text : String} {r : ClassifyRequest}
    (hstatus : (answer host clock₀ (.attestationTime file) d).status = 0)
    (hprinted : (answer host clock₀ (.attestationTime file) d).output = text ++ "\n")
    (hsource : r.source = .file path) (hfile : r.attestations = some file)
    (hunnamed : r.effectiveTime.getD "" = "") :
    let first := answer host clock (.classify r) d
    let again (clock' : Instant) (attestations : Option String) :=
      answer host clock' (.classify (r.named text attestations)) d
    (first.status ≠ 0 ∧ first.output = "" ∨ Begins (timeHeading r.json text) first.output) ∧
      ∃ as i, statementsOf d file = .ok as ∧ IsLatestBuild as i ∧ text = i.secondsText ∧
        (0 ≤ i.date.year ∧ i.date.year ≤ 9999 → ∀ clock' attestations,
          attestations = none ∨ attestations = some file → again clock' attestations = first) ∧
        (i.date.year < 0 ∨ 9999 < i.date.year → ∀ clock' attestations,
          (again clock' attestations).status ≠ 0 ∧ (again clock' attestations).output = "") := by
  intro first again
  obtain ⟨as, i, has, ht, hvalid, rfl⟩ := attestationTime_printed hstatus hprinted
  refine ⟨classify_begins hsource hfile hunnamed has ht, as, i, has,
    attestationTime?_eq_some_iff.mp ht, rfl, ?_, ?_⟩
  · rintro ⟨h0, h1⟩ clock' attestations hattestations
    exact classify_named hsource hfile hunnamed has ht
      (requestedTime_secondsText clock' hvalid h0 h1) hattestations
  · intro hyear clock' attestations
    obtain ⟨fault, htime⟩ := requestedTime_secondsText_of_signed clock' hyear
    obtain ⟨err, hcontext⟩ := requestedContext_of_fault (d := d)
      (r := r.named i.secondsText attestations) htime
    have hfailed : again clock' attestations = .failed err d := classify_of_no_context hcontext
    rw [hfailed]
    exact ⟨Nat.one_ne_zero, rfl⟩

/-- Statements about a build that finished in a leap second, and results with a failure that blocks
from the next second on. -/
def leapDisk : Disk where
  entries :=
    [(["work"], .directory),
      (["work", "s"], .file (Utf8.encode (
        "[\x7b\"predicateType\":\"https://slsa.dev/provenance/v0.2\",\"predicate\":" ++
        "\x7b\"metadata\":\x7b\"buildFinishedOn\":" ++
        "\"2017-01-01T00:59:60.5+01:00\"\x7d\x7d\x7d]").toList)),
      (["work", "r"], .file (Utf8.encode (
        "[\x7b\"failures\":[\x7b\"msg\":\"late\",\"metadata\":" ++
        "\x7b\"effective_on\":\"2017-01-01T00:00:00Z\"\x7d\x7d]\x7d]").toList))]
  scratches := 0
  runnable := []

/-- A request about them. -/
def leapRequest : ClassifyRequest where
  source := .file "r"
  attestations := some "s"
  publicKey := some "key"

/-- The answer at an instant to a request about them. -/
def leapAnswer (clock : Instant) (r : Request) : Answer :=
  answer (fun _ _ => none) clock r leapDisk

theorem leapAnswer_runs : (leapAnswer ⟨0, 0⟩ (.attestationTime "s")).status = 0 ∧
    (leapAnswer ⟨0, 0⟩ (.attestationTime "s")).output = "2016-12-31T23:59:60Z" ++ "\n" ∧
    (leapAnswer ⟨0, 0⟩ (.classify leapRequest)).status = 0 := by
  decide +kernel

/-- Such a classification is done again at the leap second. -/
theorem answer_reproduced_leap :
    (leapAnswer ⟨0, 0⟩ (.attestationTime "s")).output = "2016-12-31T23:59:60Z" ++ "\n" ∧
      Begins "Effective time: 2016-12-31T23:59:60Z\n"
        (leapAnswer ⟨0, 0⟩ (.classify leapRequest)).output ∧
      leapAnswer ⟨1, 0⟩ (.classify (leapRequest.named "2016-12-31T23:59:60Z" none)) =
        leapAnswer ⟨0, 0⟩ (.classify leapRequest) := by
  obtain ⟨hstatus, hprinted, hfirst⟩ := leapAnswer_runs
  obtain ⟨hbegins, as, i, -, -, htext, hagain, -⟩ :=
    answer_reproduced ⟨0, 0⟩ (r := leapRequest) hstatus hprinted rfl rfl rfl
  have hparse : Rfc3339.parse "2016-12-31T23:59:60Z".toList = .ok ⟨1483228799, 1000000000⟩ := by
    rfl
  rw [htext, Instant.secondsText, String.toList_ofList] at hparse
  exact ⟨hprinted, hbegins.resolve_left fun h => h.1 hfirst,
    hagain (Rfc3339.year_of_parse_renderSeconds hparse) ⟨1, 0⟩ none (.inl rfl)⟩

end CommandLine
end ImagePolicy
