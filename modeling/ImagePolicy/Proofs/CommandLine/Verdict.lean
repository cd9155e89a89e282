/-
# The verdict of a classification

The verdict of a classification is told three times: by the status, by what is printed as text, and
by what is printed as JSON. All three come from one classification of one list of groups
(`Classified`), and they agree. Without one, because something could not be loaded or there is
nothing to classify, the status is 1, nothing is printed, and there is an error.

The JSON is told by what a reader makes of it, floats in the metadata included, and the text line by
line.

Key definitions: `CommandLine.Classified`, `CommandLine.verdictLines`, `CommandLine.ToldInLines`,
`CommandLine.ToldInJson`.
Key theorems: `CommandLine.classify_cases`, `CommandLine.plainText_eq`,
`CommandLine.count_failLines`, `CommandLine.read_jsonText`, `CommandLine.answer_consistent`.
-/
import ImagePolicy.Proofs.CommandLine.Printing
import ImagePolicy.Proofs.Json.Indented
import ImagePolicy.Proofs.Json.Nesting
import ImagePolicy.Proofs.Text.Segments

namespace ImagePolicy
namespace CommandLine

/-! ### What is classified -/

/-- What a request for the results in a file loads: a policy, a context made of it that the
attestations have set the time of, and groups of results. -/
structure Loaded (clock : Instant) (d : Disk) (r : ClassifyRequest) (path : String)
    (c : PolicyContext) (groups : List CheckGroup) : Prop where
  context : ∃ spec made as, PolicySpec.load d.readText? r.policy = .ok spec ∧
    PolicyContext.new clock spec
      { publicKey := r.publicKey, effectiveTime := r.effectiveTime } = .ok made ∧
    requestedStatements d r = .ok as ∧ c = made.attested as
  results : resultsOf d path = .ok groups

/-- A request loads what it refers to, and that is classified. -/
def Classified (clock : Instant) (d : Disk) (r : ClassifyRequest) (path : String)
    (c : PolicyContext) (classified : List CheckGroup) : Prop :=
  ∃ groups, Loaded clock d r path c groups ∧
    (Classifier.ofContext c).classify? groups = some classified

/-- No group has a failure. -/
def unfailed (groups : List CheckGroup) : Bool :=
  groups.all fun g => g.failures.isEmpty

/-- The answer with the verdict on classified groups. -/
def verdict (json : Bool) (c : PolicyContext) (classified : List CheckGroup) (d : Disk) : Answer :=
  ⟨if unfailed classified then 0 else 1,
    if json then jsonText c classified (unfailed classified)
    else plainText c classified (unfailed classified), none, d⟩

theorem requestedContext_eq_ok_iff {clock : Instant} {d : Disk} {r : ClassifyRequest}
    {made : PolicyContext} : requestedContext clock d r = .ok made ↔
      ∃ spec, PolicySpec.load d.readText? r.policy = .ok spec ∧
        PolicyContext.new clock spec
          { publicKey := r.publicKey, effectiveTime := r.effectiveTime } = .ok made := by
  unfold requestedContext
  cases PolicySpec.load d.readText? r.policy with
  | error fault => simp [Except.mapError, bind, Except.bind]
  | ok spec =>
    cases hnew : PolicyContext.new clock spec
        { publicKey := r.publicKey, effectiveTime := r.effectiveTime } with
    | error fault => simp [Except.mapError, bind, Except.bind, hnew]
    | ok found => simp [Except.mapError, bind, Except.bind, hnew]

theorem classified_iff {clock : Instant} {d : Disk} {r : ClassifyRequest} {path : String}
    {c : PolicyContext} {classified : List CheckGroup} :
    Classified clock d r path c classified ↔ ∃ made as groups,
      requestedContext clock d r = .ok made ∧ requestedStatements d r = .ok as ∧
        c = made.attested as ∧ resultsOf d path = .ok groups ∧
          (Classifier.ofContext c).classify? groups = some classified := by
  constructor
  · rintro ⟨groups, ⟨⟨spec, made, as, hspec, hmade, has, hc⟩, hgroups⟩, hclassified⟩
    exact ⟨made, as, groups, requestedContext_eq_ok_iff.mpr ⟨spec, hspec, hmade⟩, has, hc, hgroups,
      hclassified⟩
  · rintro ⟨made, as, groups, hcontext, has, hc, hgroups, hclassified⟩
    obtain ⟨spec, hspec, hmade⟩ := requestedContext_eq_ok_iff.mp hcontext
    exact ⟨groups, ⟨⟨spec, made, as, hspec, hmade, has, hc⟩, hgroups⟩, hclassified⟩

/-- **A classification comes about or fails.** -/
theorem classify_cases {host : Host} {clock : Instant} {d : Disk} {r : ClassifyRequest}
    {path : String} (hsource : r.source = .file path) :
    (∃ c classified, Classified clock d r path c classified ∧
      classify host clock r d = verdict r.json c classified d) ∨
    (¬∃ c classified, Classified clock d r path c classified) ∧
      ∃ error, classify host clock r d = .failed error d := by
  have hresults : ∀ c as, requestedResults host r c as d = (resultsOf d path, d) := by
    intro c as
    unfold requestedResults
    rw [hsource]
  simp only [classified_iff]
  unfold classify
  cases hcontext : requestedContext clock d r with
  | error err => exact .inr ⟨by simp, err, rfl⟩
  | ok made =>
    cases has : requestedStatements d r with
    | error err => exact .inr ⟨by simp, err, rfl⟩
    | ok as =>
      simp only [hresults]
      cases hgroups : resultsOf d path with
      | error err => exact .inr ⟨by simp, err, rfl⟩
      | ok groups =>
        cases hclassified : (Classifier.ofContext (made.attested as)).classify? groups with
        | none =>
          refine .inr ⟨by simp [hclassified], VerificationError.noResults.message?.getD "", ?_⟩
          simp only [printed, hclassified]
        | some classified =>
          refine .inl ⟨made.attested as, classified, ⟨made, as, groups, rfl, rfl, rfl, rfl,
            hclassified⟩, ?_⟩
          simp only [printed, hclassified]
          rfl

/-- Whether JSON is asked for makes no difference to what is classified. -/
theorem classified_json {clock : Instant} {d : Disk} {r : ClassifyRequest} {path : String}
    {c : PolicyContext} {classified : List CheckGroup} (json : Bool) :
    Classified clock d { r with json } path c classified ↔
      Classified clock d r path c classified := by
  rw [classified_iff, classified_iff]
  rfl

/-- A request is classified in one way only. -/
theorem Classified.eq {clock : Instant} {d : Disk} {r : ClassifyRequest} {path : String}
    {c c' : PolicyContext} {classified classified' : List CheckGroup}
    (h : Classified clock d r path c classified) (h' : Classified clock d r path c' classified') :
    c' = c ∧ classified' = classified := by
  obtain ⟨made, as, groups, hcontext, has, rfl, hgroups, hclassified⟩ := classified_iff.mp h
  obtain ⟨made', as', groups', hcontext', has', rfl, hgroups', hclassified'⟩ := classified_iff.mp h'
  cases hcontext.symm.trans hcontext'
  cases has.symm.trans has'
  cases hgroups.symm.trans hgroups'
  exact ⟨rfl, Option.some.inj (hclassified'.symm.trans hclassified)⟩

/-! ### The text -/

/-- The lines of a classified group: its successes, its warnings and its failures. -/
def groupLines (g : CheckGroup) : List String :=
  g.successes.map ("[PASS] " ++ ·.message) ++ g.warnings.map ("[WARN] " ++ ·.message) ++
    g.failures.map ("[FAIL] " ++ ·.message)

/-- The lines that tell a verdict: the time, the lines of all groups, an empty one, and whether the
policy passed. -/
def verdictLines (c : PolicyContext) (groups : List CheckGroup) (passed : Bool) : List String :=
  ("Effective time: " ++ c.instant.secondsText) :: groups.flatMap groupLines ++
    ["", "Policy check " ++ if passed then "PASSED" else "FAILED"]

/-- The line of a failure. -/
def isFailLine (line : List Char) : Bool :=
  "[FAIL] ".toList.isPrefixOf line

/-- A text tells the verdict on classified groups in lines. -/
structure ToldInLines (c : PolicyContext) (groups : List CheckGroup) (passed : Bool)
    (output : String) : Prop where
  lines : output = String.join ((verdictLines c groups passed).map (· ++ "\n"))
  /-- Unless a message is broken into lines itself, there is one line for each failure. -/
  failLines : (∀ g ∈ groups, ∀ r ∈ g.successes ++ g.warnings ++ g.failures,
      '\n' ∉ r.message.toList) →
    ((Text.split '\n' output.toList).filter isFailLine).length =
      (groups.map fun g => g.failures.length).sum

theorem groupLines_eq (g : CheckGroup) :
    (g.classified.map fun (outcome, r) => resultLine outcome r) =
      (groupLines g).map (· ++ "\n") := by
  simp [CheckGroup.classified, groupLines, resultLine, label, Function.comp_def]

/-- **The text is its lines.** -/
theorem plainText_eq (c : PolicyContext) (groups : List CheckGroup) (passed : Bool) :
    plainText c groups passed = String.join ((verdictLines c groups passed).map (· ++ "\n")) := by
  have hgroups :
      groups.flatMap (fun g => g.classified.map fun (outcome, r) => resultLine outcome r) =
        (groups.flatMap groupLines).map (· ++ "\n") := by
    rw [List.map_flatMap, ← funext groupLines_eq]
  unfold plainText
  simp only [hgroups]
  rw [← String.toList_inj]
  simp [verdictLines]

/-- No line of a verdict is broken if no message is. -/
theorem not_mem_verdictLines {c : PolicyContext} {groups : List CheckGroup} {passed : Bool}
    (h : ∀ g ∈ groups, ∀ r ∈ g.successes ++ g.warnings ++ g.failures, '\n' ∉ r.message.toList) :
    ∀ line ∈ verdictLines c groups passed, '\n' ∉ line.toList := by
  have happend : ∀ front back : String, '\n' ∉ front.toList → '\n' ∉ back.toList →
      '\n' ∉ (front ++ back).toList := fun front back hfront hback => by
    rw [String.toList_append, List.mem_append]
    exact not_or.mpr ⟨hfront, hback⟩
  have htime : '\n' ∉ c.instant.secondsText.toList := by
    rw [Instant.secondsText, String.toList_ofList]
    intro hmem
    exact absurd (Json.plain_renderSeconds c.instant '\n' hmem) (by decide)
  have hgroup : ∀ g ∈ groups, ∀ line ∈ groupLines g, '\n' ∉ line.toList := by
    intro g hg
    have hmessages := h g hg
    simp only [List.forall_mem_append] at hmessages
    obtain ⟨⟨hsuccesses, hwarnings⟩, hfailures⟩ := hmessages
    simp only [groupLines, List.forall_mem_append, List.forall_mem_map]
    exact ⟨⟨fun r hr => happend _ _ (by decide) (hsuccesses r hr),
      fun r hr => happend _ _ (by decide) (hwarnings r hr)⟩,
      fun r hr => happend _ _ (by decide) (hfailures r hr)⟩
  have hpassed : '\n' ∉ (if passed then "PASSED" else "FAILED").toList := by
    cases passed <;> decide
  simp only [verdictLines, List.forall_mem_append, List.forall_mem_cons, List.forall_mem_flatMap]
  exact ⟨⟨happend _ _ (by decide) htime, hgroup⟩, by decide, happend _ _ (by decide) hpassed,
    List.forall_mem_nil _⟩

/-- Of the lines of a group those of its failures are lines of failures. -/
theorem length_filter_groupLines (g : CheckGroup) :
    ((groupLines g).filter fun line => isFailLine line.toList).length = g.failures.length := by
  have hpass : ∀ cs, isFailLine ('[' :: 'P' :: cs) = false := fun _ => rfl
  have hwarn : ∀ cs, isFailLine ('[' :: 'W' :: cs) = false := fun _ => rfl
  have hfail : ∀ cs, isFailLine ('[' :: 'F' :: 'A' :: 'I' :: 'L' :: ']' :: ' ' :: cs) = true :=
    fun _ => rfl
  simp [groupLines, ← List.countP_eq_length_filter, Function.comp_def, hpass, hwarn, hfail]

/-- **There is one line for each failure**, if no message is broken into lines itself. -/
theorem count_failLines {c : PolicyContext} {groups : List CheckGroup} {passed : Bool}
    (h : ∀ g ∈ groups, ∀ r ∈ g.successes ++ g.warnings ++ g.failures, '\n' ∉ r.message.toList) :
    ((Text.split '\n' (plainText c groups passed).toList).filter isFailLine).length =
      (groups.map fun g => g.failures.length).sum := by
  have htext : (plainText c groups passed).toList =
      ((verdictLines c groups passed).map String.toList).flatMap (· ++ ['\n']) := by
    rw [plainText_eq, String.toList_join]
    simp [List.flatMap_map, String.toList_append]
  have htime : ∀ cs, isFailLine ('E' :: cs) = false := fun _ => rfl
  have hcheck : ∀ cs, isFailLine ('P' :: cs) = false := fun _ => rfl
  have hempty : isFailLine [] = false := rfl
  rw [htext, Text.split_flatMap (List.forall_mem_map.mpr (not_mem_verdictLines h))]
  simp [verdictLines, List.filter_map, List.filter_flatMap, List.length_flatMap, Function.comp_def,
    htime, hcheck, hempty, length_filter_groupLines]

/-! ### The JSON -/

/-- A text tells the verdict on classified groups in JSON. -/
structure ToldInJson (c : PolicyContext) (groups : List CheckGroup) (passed : Bool)
    (output : String) : Prop where
  /-- It is read as an object of three members, the last of them the encodings of the groups. -/
  reads : Json.readString output = some (.object
    [(some "effectiveTime", .text (some c.instant.secondsText)), (some "passed", .bool passed),
      (some "results", .list (groups.map fun g => g.encode.ordered.tree))])

/-- **The JSON is read as the verdict.** -/
theorem read_jsonText (c : PolicyContext) (groups : List CheckGroup) (passed : Bool) :
    ToldInJson c groups passed (jsonText c groups passed) := by
  have hsource : ∀ v, Json.Source.ofString (String.ofList (Json.renderIndented v) ++ "\n") =
      (Json.renderIndented v ++ ['\n']).map some := by
    intro v
    rw [Json.Source.ofString, String.toList_append, String.toList_ofList]
    rfl
  constructor
  unfold jsonText
  simp only [ordered_document]
  rw [Json.readString, hsource, Json.read_renderIndented]
  simp [Json.Value.tree, Json.Value.memberTrees, Json.itemTrees_eq_map, Json.orderedItems_eq_map,
    Function.comp_def]

/-! ### The verdict -/

theorem unfailed_iff {groups : List CheckGroup} :
    unfailed groups = true ↔ ∀ g ∈ groups, g.failures = [] := by
  simp [unfailed]

section Answers

variable {json : Bool} {c : PolicyContext} {classified : List CheckGroup} {d : Disk}

/-- The status of a verdict stands for what its text and its JSON say. -/
theorem passed_eq : ((verdict json c classified d).status == 0) = unfailed classified := by
  unfold verdict
  cases unfailed classified <;> rfl

theorem status_eq_one (h : (verdict json c classified d).status ≠ 0) :
    (verdict json c classified d).status = 1 := by
  unfold verdict at h ⊢
  cases hu : unfailed classified
  · rfl
  · simp [hu] at h

theorem status_eq_zero_iff :
    (verdict json c classified d).status = 0 ↔ ∀ g ∈ classified, g.failures = [] := by
  rw [← unfailed_iff, ← @passed_eq json c classified d, beq_iff_eq]

/-- A verdict is printed, whichever it is. -/
theorem output_ne_empty : (verdict json c classified d).output ≠ "" := by
  have hline : ∀ text : String, text ++ "\n" ≠ "" := fun text h => by
    have hlength := congrArg String.length h
    simp at hlength
  cases json
  · exact hline _
  · exact hline _

end Answers

section Told

variable {host : Host} {clock : Instant} {d : Disk} {r : ClassifyRequest} {path : String}

theorem answer_cases (hsource : r.source = .file path) (json : Bool) :
    (∃ c classified, Classified clock d r path c classified ∧
      answer host clock (.classify { r with json }) d = verdict json c classified d) ∨
    (¬∃ c classified, Classified clock d r path c classified) ∧
      ∃ error, answer host clock (.classify { r with json }) d = .failed error d := by
  have hcases := @classify_cases host clock d { r with json } path hsource
  simp only [classified_json] at hcases
  exact hcases

/-- The answer to a request that is classified is the verdict on what is classified. -/
theorem answer_of_classified (hsource : r.source = .file path) (json : Bool) {c : PolicyContext}
    {classified : List CheckGroup} (h : Classified clock d r path c classified) :
    answer host clock (.classify { r with json }) d = verdict json c classified d := by
  rcases answer_cases hsource json with ⟨c', classified', h', heq⟩ | ⟨hnone, -⟩
  · obtain ⟨rfl, rfl⟩ := h.eq h'
    exact heq
  · exact absurd ⟨c, classified, h⟩ hnone

/-- The answer to a request that is not classified is an error. -/
theorem answer_of_unclassified (hsource : r.source = .file path) (json : Bool)
    (h : ¬∃ c classified, Classified clock d r path c classified) :
    ∃ error, answer host clock (.classify { r with json }) d = .failed error d := by
  rcases answer_cases hsource json with ⟨c, classified, hsome, -⟩ | ⟨-, herror⟩
  · exact absurd ⟨c, classified, hsome⟩ h
  · exact herror

/-- What is told of a request that is classified, in either form. -/
theorem told_of_classified (hsource : r.source = .file path) (json : Bool) {c : PolicyContext}
    {classified : List CheckGroup} (h : Classified clock d r path c classified) :
    let told := answer host clock (.classify { r with json }) d
    (told.status = 0 ↔ ∀ g ∈ classified, g.failures = []) ∧ (told.status ≠ 0 → told.status = 1) ∧
      told.output ≠ "" ∧ told.error = none := by
  rw [answer_of_classified hsource json h]
  exact ⟨status_eq_zero_iff, status_eq_one, output_ne_empty, rfl⟩

/-- What is told of a request that is not classified. -/
theorem told_of_unclassified (hsource : r.source = .file path) (json : Bool)
    (h : ¬∃ c classified, Classified clock d r path c classified) :
    let told := answer host clock (.classify { r with json }) d
    told.status = 1 ∧ told.output = "" ∧ told.error ≠ none := by
  obtain ⟨error, heq⟩ := @answer_of_unclassified host clock d r path hsource json h
  rw [heq]
  exact ⟨rfl, rfl, Option.some_ne_none error⟩

end Told

/-- **What is told of a classification is consistent.** The status is 0 just if everything loads, is
classified, and has no failure; otherwise it is 1. Something is printed just if there is a
classification, and there is an error just if there is none. Whether JSON is asked for makes no
difference to the status, and both the text and the JSON tell the groups and the verdict that the
status stands for. -/
theorem answer_consistent {host : Host} {clock : Instant} {d : Disk} {r : ClassifyRequest}
    {path : String} (hsource : r.source = .file path) :
    let told (json : Bool) := answer host clock (.classify { r with json }) d
    (∀ json, ((told json).status = 0 ↔ ∃ c classified, Classified clock d r path c classified ∧
        ∀ g ∈ classified, g.failures = []) ∧
      ((told json).status ≠ 0 → (told json).status = 1) ∧
      ((told json).output = "" ↔ ¬∃ c classified, Classified clock d r path c classified) ∧
      ((told json).error = none ↔ ∃ c classified, Classified clock d r path c classified)) ∧
    (told true).status = (told false).status ∧
    ∀ c classified, Classified clock d r path c classified →
      ToldInLines c classified ((told false).status == 0) (told false).output ∧
        ToldInJson c classified ((told true).status == 0) (told true).output := by
  intro told
  by_cases hclassified : ∃ c classified, Classified clock d r path c classified
  · obtain ⟨c, classified, h⟩ := hclassified
    have hsome : ∃ c classified, Classified clock d r path c classified := ⟨c, classified, h⟩
    have htold : ∀ json, told json = verdict json c classified d := fun json =>
      answer_of_classified hsource json h
    refine ⟨fun json => ?_, by rw [htold, htold]; rfl, fun c' classified' h' => ?_⟩
    · obtain ⟨hzero, hone, houtput, herror⟩ := @told_of_classified host clock d r path hsource json
        c classified h
      refine ⟨hzero.trans ⟨fun hnone => ⟨c, classified, h, hnone⟩, ?_⟩, hone,
        iff_of_false houtput (not_not_intro hsome), iff_of_true herror hsome⟩
      rintro ⟨c', classified', h', hnone⟩
      exact (h.eq h').2 ▸ hnone
    · obtain ⟨rfl, rfl⟩ := h.eq h'
      have hpassed : ∀ json, ((told json).status == 0) = unfailed classified' := fun json =>
        htold json ▸ passed_eq
      rw [hpassed, hpassed, htold, htold]
      exact ⟨⟨plainText_eq _ _ _, count_failLines⟩, read_jsonText _ _ _⟩
  · have htold : ∀ json, (told json).status = 1 ∧ (told json).output = "" ∧
        (told json).error ≠ none := fun json => told_of_unclassified hsource json hclassified
    refine ⟨fun json => ?_, (htold true).1.trans (htold false).1.symm,
      fun c classified h => absurd ⟨c, classified, h⟩ hclassified⟩
    obtain ⟨hone, houtput, herror⟩ := htold json
    refine ⟨iff_of_false (by rw [hone]; exact Nat.one_ne_zero) ?_, fun _ => hone,
      iff_of_true houtput hclassified, iff_of_false herror hclassified⟩
    rintro ⟨c, classified, h, -⟩
    exact hclassified ⟨c, classified, h⟩

/-- Results in a file, of which one fails and has a number in its metadata that is not whole. -/
def mixedDisk : Disk where
  entries :=
    [(["work"], .directory),
      (["work", "r"], .file (Utf8.encode (
        "[\x7b\"successes\":[\x7b\"msg\":\"built\"\x7d]\x7d," ++
        "\x7b\"failures\":[\x7b\"msg\":\"weak\",\"metadata\":" ++
        "\x7b\"score\":1.5\x7d\x7d]\x7d]").toList))]
  scratches := 0
  runnable := []

/-- A request about them. -/
def mixedRequest : ClassifyRequest where
  source := .file "r"
  publicKey := some "key"

/-- The failure in these results is told by the status, in the text and in the JSON. -/
theorem answer_consistent_mixed :
    let told (json : Bool) :=
      answer (fun _ _ => none) ⟨0, 0⟩ (.classify { mixedRequest with json }) mixedDisk
    (told false).status = 1 ∧ (told true).status = 1 ∧
      ∃ c classified, Classified ⟨0, 0⟩ mixedDisk mixedRequest "r" c classified ∧
        ToldInLines c classified false (told false).output ∧
        ToldInJson c classified false (told true).output := by
  intro told
  have hruns : (told false).status = 1 ∧ (told false).error = none := by decide +kernel
  obtain ⟨hall, hsame, htold⟩ :=
    @answer_consistent (fun _ _ => none) ⟨0, 0⟩ mixedDisk mixedRequest "r" rfl
  obtain ⟨c, classified, h⟩ := (hall false).2.2.2.mp hruns.2
  obtain ⟨hlines, hjson⟩ := htold c classified h
  rw [hsame.trans hruns.1] at hjson
  rw [hruns.1] at hlines
  exact ⟨hruns.1, hsame.trans hruns.1, c, classified, h, hlines, hjson⟩

end CommandLine
end ImagePolicy
