/-
# What evaluators are shown

A run that comes to its evaluators shows all of them one file, and the text of this file has the
statements of the attestations that count, in their order, and nothing else (`Evidence`). Two things
are put together here. The attestations are sorted out twice, by shape and by digest, and it does
not matter by which first. And the document is read back as it was written, whatever strings the
statements hold and however deep they are nested.

The file is there for the evaluators to read, and nothing keeps one of them from writing to it. So
an evaluator finds the document as it was staged, unless one that the run has asked before it, in
the session that it was asked in, has replaced it (`Evaluator.Replaces`).

Key definitions: `Evidence`, `Asked`, `Evaluator.Replaces`, `Pipeline.Shown`.
Key theorems: `documentValue?_bytes`, `valid_matching`, `Asked.found_or_replaced`,
`Pipeline.validate_shown`.
-/
import ImagePolicy.Proofs.Json.Documents
import ImagePolicy.Proofs.Text.Encoding
import ImagePolicy.Proofs.Scratch.Disk
import ImagePolicy.Proofs.Pipeline.Endings
import ImagePolicy.Proofs.Pipeline.Influence

namespace ImagePolicy

open Json (Value)

/-! ### The document -/

theorem ordered_inputDocument (as : List Attestation) : (inputDocument as).ordered =
    .object [("attestations", .list (as.map fun a => a.statement.ordered))] := by
  have hitems : Value.orderedItems (as.map Attestation.statement) =
      as.map fun a => a.statement.ordered := by
    rw [Json.orderedItems_eq_map, List.map_map]
    rfl
  rw [inputDocument, Value.ordered, Value.orderedMembers, Value.orderedMembers, Value.ordered,
    hitems]
  rfl

/-- **The document of attestations is read back as their statements**, if it may be nested as deep
as it is. -/
theorem documentValue?_bytes {as : List Attestation} (hwhole : ∀ a ∈ as, Json.Whole a.statement)
    {levels : Nat} (hdepth : Json.depth (inputDocument as) ≤ levels) :
    documentValue? levels (StagedInput.bytes as) =
      some (.object [("attestations", .list (as.map fun a => a.statement.ordered))]) := by
  have hitems : Json.Whole (inputDocument as) :=
    ⟨Json.wholeItems_iff.mpr (List.forall_mem_map.mpr hwhole), trivial⟩
  have hread : Json.read (Utf8.decode (StagedInput.bytes as)) = some (inputDocument as).tree := by
    rw [StagedInput.bytes, Utf8.decode_encode]
    exact Json.read_render _
  rw [documentValue?, hread, Option.bind_some, Json.value?_tree _ _ hitems hdepth,
    ordered_inputDocument]

/-! ### The attestations that count -/

/-- Sorting out by digest and then by shape leaves the attestations that count, too. -/
theorem valid_matching (hex : String) (as : List Attestation) :
    (partitionByShape (matching hex as)).1 = counting hex as := by
  have hswap : matching hex (partitionByShape as).1 = (partitionByShape (matching hex as)).1 := by
    unfold matching partitionByShape
    rw [partitionFrom_valid, partitionFrom_valid, List.filter_filter, List.filter_filter]
    exact List.filter_congr fun a _ => Bool.and_comm _ _
  rw [← hswap, matching_valid]

/-- Which statements count is a matter of the statements. -/
theorem statements_counting (hex : String) (as : List Attestation) :
    (counting hex as).map Attestation.statement =
      (as.map Attestation.statement).filter fun v =>
        statementFault? v = none ∧ hex ∈ (⟨v, []⟩ : Attestation).subjectDigests := by
  rw [List.filter_map]
  rfl

/-- A document is the evidence on an image with a digest, of attestations that verify. -/
structure Evidence (hex : String) (as : List Attestation) (document : Bytes) : Prop where
  /-- Some of them count. -/
  counts : counting hex as ≠ []
  /-- The document has the statements of those that count, in their order. -/
  reads : (∀ a ∈ counting hex as, Json.Whole a.statement) → ∀ levels,
    Json.depth (inputDocument (counting hex as)) ≤ levels →
    documentValue? levels document =
      some (.object [("attestations", .list ((counting hex as).map fun a => a.statement.ordered))])
  /-- Those are statements as they came, if they came with their members in key order. -/
  intact : ∀ a ∈ counting hex as, Json.Ordered a.statement → a.statement.ordered = a.statement
  /-- They count by shape first and then by digest. -/
  sorted : matching hex (partitionByShape as).1 = counting hex as
  /-- They count by digest first and then by shape. -/
  swapped : (partitionByShape (matching hex as)).1 = counting hex as
  /-- The same statements with other signatures make the same document. -/
  unsigned : ∀ others : List Attestation,
    others.map Attestation.statement = as.map Attestation.statement →
    StagedInput.bytes (counting hex others) = document

/-- **The document of the attestations that count is evidence**, if there are any. -/
theorem evidence_bytes {hex : String} {as : List Attestation} (h : counting hex as ≠ []) :
    Evidence hex as (StagedInput.bytes (counting hex as)) where
  counts := h
  reads hwhole _ hdepth := documentValue?_bytes hwhole hdepth
  intact _ _ hordered := Json.ordered_eq_of_ordered hordered
  sorted := matching_valid hex as
  swapped := valid_matching hex as
  unsigned others hsame := by
    unfold StagedInput.bytes inputDocument
    rw [statements_counting, hsame, ← statements_counting]

/-! ### What evaluators find -/

/-- Evaluators are asked in turn, from an index on and starting in a session, as long as they have
results. The evaluator with a further index is then asked in a session. -/
inductive Asked (input : Path) (c : PolicyContext) :
    Nat → List Evaluator → Session → Nat → Evaluator → Session → Prop
  | first {index : Nat} {e : Evaluator} {es : List Evaluator} {s : Session} :
      Asked input c index (e :: es) s index e s
  | later {index i : Nat} {e f : Evaluator} {es : List Evaluator} {s next t : Session}
      {groups : List CheckGroup} :
      s.evaluate index e input c = (.ok groups, next) →
      Asked input c (index + 1) es next i f t →
      Asked input c index (e :: es) s i f t

/-- An evaluator that is asked in a session finds a document at its input, and leaves something
else there. -/
structure Evaluator.Replaces (e : Evaluator) (index : Nat) (input : Path) (c : PolicyContext)
    (s : Session) (document : Bytes) : Prop where
  found : s.disk.content? input = some document
  left : (s.evaluate index e input c).2.disk.content? input ≠ some document

namespace Asked

variable {input : Path} {c : PolicyContext} {index i : Nat} {es : List Evaluator} {s t : Session}
  {e : Evaluator} {document : Bytes}

theorem index_le (h : Asked input c index es s i e t) : index ≤ i := by
  induction h with
  | first => exact Nat.le_refl _
  | later _ _ ih => exact Nat.le_of_succ_le ih

/-- **A document stays at the input until an evaluator replaces it.** -/
theorem found_or_replaced (h : Asked input c index es s i e t)
    (hstart : s.disk.content? input = some document) :
    t.disk.content? input = some document ∨
      ∃ j f u, j < i ∧ Asked input c index es s j f u ∧ f.Replaces j input c u document := by
  induction h with
  | first => exact .inl hstart
  | @later index i e _ es s next _ groups hreply hrest ih =>
    by_cases hnext : next.disk.content? input = some document
    · refine (ih hnext).imp_right ?_
      rintro ⟨j, f, u, hj, hasked, hreplaces⟩
      exact ⟨j, f, u, hj, .later hreply hasked, hreplaces⟩
    · have hleft : (s.evaluate index e input c).2.disk.content? input ≠ some document := by
        rw [hreply]
        exact hnext
      exact .inr ⟨index, e, s, hrest.index_le, .first, hstart, hleft⟩

end Asked

namespace Pipeline

/-- What is noted of an evaluator that is asked, those before it having results, is the session it
is asked in. -/
theorem askEvaluators_asked {input : Path} {c : PolicyContext} {x : Call × Reply (List CheckGroup)}
    {after : List (Call × Reply (List CheckGroup))} :
    ∀ (before : List (Call × Reply (List CheckGroup))) (index : Nat) (es : List Evaluator)
      (s : Session), askEvaluators input c index es s = before ++ x :: after →
      (∀ y ∈ before, ∃ groups, y.2 = .ok groups) → ∃ i e t, Asked input c index es s i e t ∧
        x.1 = .evaluate i input (t.disk.content? input) c.effectiveTime
  | [], index, e :: es, s, hsplit, _ => by
    obtain rfl := (List.cons.inj hsplit).1.symm
    exact ⟨index, e, s, .first, rfl⟩
  | y :: before, index, e :: es, s, hsplit, hok => by
    obtain ⟨hy, hrest⟩ := List.cons.inj hsplit
    obtain ⟨⟨groups, hgroups⟩, hok⟩ := List.forall_mem_cons.mp hok
    rw [← hy] at hgroups
    obtain ⟨i, f, t, hasked, hx⟩ := askEvaluators_asked before (index + 1) es _ hrest hok
    exact ⟨i, f, t, .later (Prod.ext hgroups rfl) hasked, hx⟩

/-- The session in which the first evaluator is asked: the verifier has been asked, and the
attestations that count are staged as JSON. -/
def readied (p : Pipeline) (image : ImageReference) (c : PolicyContext) (s : Session)
    (counted : List Attestation) : Session :=
  { (p.verified image c s).note (.writeInput counted.length) with
    disk := (StagedInput.stage counted s.disk).2 }

/-- An evaluator of a run about an image is shown a file, where it finds a document. -/
structure Shown (p : Pipeline) (image : ImageReference) (c : PolicyContext) (s : Session)
    (counted : List Attestation) (i : Nat) (input : Path) (found : Option Bytes) : Prop where
  /-- It is the file that is staged. -/
  input_eq : input = (StagedInput.stage counted s.disk).1.path
  /-- There the document is staged. -/
  staged : (p.readied image c s counted).disk.content? input = some (StagedInput.bytes counted)
  /-- The evaluator is asked in a session of the run, and finds what is there then. -/
  asked : ∃ e t,
    Asked input (c.attested counted) 0 p.evaluators (p.readied image c s counted) i e t ∧
      found = t.disk.content? input
  /-- It finds the document that was staged, unless an evaluator that the run asked before replaced
  it when it was asked. -/
  found_eq : found = some (StagedInput.bytes counted) ∨ ∃ j e t, j < i ∧
    Asked input (c.attested counted) 0 p.evaluators (p.readied image c s counted) j e t ∧
    e.Replaces j input (c.attested counted) t (StagedInput.bytes counted)

variable {p : Pipeline} {image : ImageReference} {c : PolicyContext} {s : Session}

/-- The evaluators of a pipeline that stages JSON are shown the document of the attestations that
count. -/
theorem shown_of_evaluations (hwriter : p.writer = jsonWriter) {i : Nat} {input : Path}
    {found : Option Bytes} {time : EffectiveTime} {x : Call × Reply (List CheckGroup)}
    {before after : List (Call × Reply (List CheckGroup))}
    (hsplit : (p.replies image c s).evaluations = before ++ x :: after)
    (hok : ∀ y ∈ before, ∃ groups, y.2 = .ok groups)
    (hcall : x.1 = .evaluate i input found time) :
    Shown p image c s (p.replies image c s).counted i input found := by
  have hevaluations : (p.replies image c s).evaluations = p.evaluations
      ((p.replies image c s).governed c) (p.verified image c s) (p.replies image c s).counted := rfl
  have hdisk : (p.verified image c s).disk = s.disk := rfl
  rw [hevaluations, Replies.governed, evaluations, hwriter, hdisk] at hsplit
  generalize (p.replies image c s).counted = counted at hsplit
  have hask : askEvaluators (StagedInput.stage counted s.disk).1.path (c.attested counted) 0
    p.evaluators (p.readied image c s counted) = before ++ x :: after := hsplit
  obtain ⟨j, e, t, hasked, hx⟩ := askEvaluators_asked before 0 _ _ hask hok
  rw [hx] at hcall
  cases hcall
  have hstaged := StagedInput.content?_stage counted s.disk
  exact ⟨rfl, hstaged, ⟨e, t, hasked, rfl⟩, hasked.found_or_replaced hstaged⟩

/-- **What the evaluators of a run are shown.** If a run that stages JSON asks an evaluator, then
the image has a digest and its attestations verify. The file that is staged is shown to all
evaluators, and its document is the evidence on the image: the statements of the attestations that
count, in their order. An evaluator finds the document so, unless one that was asked before it has
put something else in its place. -/
theorem validate_shown (p : Pipeline) (hwriter : p.writer = jsonWriter) (url : String)
    (c : PolicyContext) (s : Session) : ∃ calls,
    (p.validate url c s).2.calls = s.calls ++ calls ++ releases p.evaluators.length ∧
      ∀ i input found time, .evaluate i input found time ∈ calls →
        ∃ image digest hex as, ImageReference.parse url = .ok image ∧
          (p.replies image c s).digest = .ok digest ∧ IsDigest digest hex ∧
          (p.replies image c s).attestations = .ok as ∧
          Evidence hex as (StagedInput.bytes (counting hex as)) ∧
          Shown p image c s (counting hex as) i input found := by
  cases hparse : ImageReference.parse url with
  | error fault =>
    refine ⟨[], ?_, nofun⟩
    rw [validate_of_malformed hparse, List.append_nil]
    rfl
  | ok image =>
    obtain ⟨calls, hcalls, hrun⟩ := validate_run (p := p) (c := c) (s := s) hparse
    refine ⟨calls, hcalls, fun i input found time hcall => ?_⟩
    have hstep := hrun.mem_steps hcall
    simp only [Replies.steps, List.map_cons, List.map_map, List.mem_cons, reduceCtorEq,
      false_or] at hstep
    obtain ⟨x, hx, heq⟩ := List.mem_map.mp hstep
    have hevaluate : x.1 = .evaluate i input found time := heq
    obtain ⟨before, after, hsplit⟩ := List.append_of_mem hx
    obtain ⟨hstaging, hok⟩ := hrun.before_evaluation hsplit (hevaluate ▸ hcall)
    obtain ⟨hattested, ⟨as, has⟩, hcounted⟩ := hrun.before_staging hstaging
    obtain ⟨-, ⟨digest, hdigest, hhex⟩, -, -⟩ := hrun.before_attestations hattested
    have hshown := shown_of_evaluations hwriter hsplit hok hevaluate
    rw [Replies.counted, has] at hcounted hshown
    exact ⟨image, digest, _, as, rfl, hdigest, hhex, has, evidence_bytes hcounted, hshown⟩

/-- Of two attestations the second is about the image, and the second evaluator is shown its
statement alone. -/
theorem validate_shown_second :
    let hex := String.ofList (List.replicate 64 'a')
    let other := String.ofList (List.replicate 64 'b')
    let about (hex : String) : Value := .object [
      ("_type", .text "https://in-toto.io/Statement/v1"), ("predicate", .object []),
      ("predicateType", .text "https://slsa.dev/provenance/v1"),
      ("subject", .list [.object [("digest", .object [("sha256", .text hex)])]])]
    let v := (replying ("sha256:" ++ hex) (.ok []) (.ok [⟨about other, []⟩, ⟨about hex, []⟩])
      []).verifier
    let silent : Evaluator := { evaluate := fun _ _ _ t d => (.ok [], t, d) }
    let c : PolicyContext := ⟨"key", none, [], [], [], [], [], .now ⟨0, 0⟩⟩
    let s := Session.initial ⟨[], 0, []⟩
    let p : Pipeline := ⟨v, [silent, silent], jsonWriter⟩
    ∃ calls input found time,
      (p.validate "localhost/app:1" c s).2.calls = calls ++ releases 2 ∧
      .evaluate 1 input (some found) time ∈ calls ∧
      documentValue? 6 found = some (.object [("attestations", .list [about hex])]) := by
  intro hex other about v silent c s p
  let input : Path := ["tmp", "custos-input-000000", "input.json"]
  let found : Bytes := StagedInput.bytes [⟨about hex, []⟩]
  obtain ⟨calls, hcalls, hshown⟩ := validate_shown p rfl "localhost/app:1" c s
  have hasked : .evaluate 1 input (some found) (.now ⟨0, 0⟩) ∈ calls ++ releases 2 := by
    have hall : .evaluate 1 input (some found) (.now ⟨0, 0⟩) ∈
        (p.validate "localhost/app:1" c s).2.calls := by decide +kernel
    rw [hcalls] at hall
    exact hall
  have hcall : .evaluate 1 input (some found) (.now ⟨0, 0⟩) ∈ calls :=
    (List.mem_append.mp hasked).resolve_right (by simp [releases])
  obtain ⟨image, digest, read, as, hparse, hdigest, hhex, has, hevidence, hfound⟩ :=
    hshown _ _ _ _ hcall
  refine ⟨calls, input, found, .now ⟨0, 0⟩, hcalls, hcall, ?_⟩
  obtain rfl : [⟨about other, []⟩, ⟨about hex, []⟩] = as := Except.ok.inj has
  obtain rfl : "sha256:" ++ hex = digest := Except.ok.inj hdigest
  obtain rfl : hex = read := by simpa using hhex.spelled
  have hcounting : counting hex [⟨about other, []⟩, ⟨about hex, []⟩] = [⟨about hex, []⟩] := rfl
  rw [hcounting] at hevidence
  have hwhole : ∀ a ∈ [(⟨about hex, []⟩ : Attestation)], Json.Whole a.statement := by
    simp [about, Json.Whole, Json.WholeMembers, Json.WholeItems]
  have hordered : Json.Ordered (about hex) := by
    simp only [about, Json.Ordered, Json.OrderedMembers, Json.OrderedItems, Json.Ascending,
      List.map_cons, List.map_nil, and_true]
    decide +kernel
  have hread := hevidence.reads hwhole 6 (by decide)
  rw [hcounting, List.map_singleton, Json.ordered_eq_of_ordered hordered] at hread
  exact hread

/-- An evaluator that puts another document in the place of the staged one is asked first, and the
second finds what the first has put there: no statement at all, where one counts. -/
theorem second_finds_altered :
    let hex := String.ofList (List.replicate 64 'a')
    let about : Attestation := {
      statement := .object [
        ("_type", .text "https://in-toto.io/Statement/v1"), ("predicate", .object []),
        ("predicateType", .text "https://slsa.dev/provenance/v1"),
        ("subject", .list [.object [("digest", .object [("sha256", .text hex)])]])] }
    let v := (replying ("sha256:" ++ hex) (.ok []) (.ok [about]) []).verifier
    let altering : Evaluator := { evaluate := fun _ input _ t d =>
      (.ok [], t, d.put input (.file (StagedInput.bytes []))) }
    let silent : Evaluator := { evaluate := fun _ _ _ t d => (.ok [], t, d) }
    let c : PolicyContext := ⟨"key", none, [], [], [], [], [], .now ⟨0, 0⟩⟩
    let s := Session.initial ⟨[], 0, []⟩
    let p : Pipeline := ⟨v, [altering, silent], jsonWriter⟩
    (∃ input found time, .evaluate 1 input (some found) time ∈
        (p.validate "localhost/app:1" c s).2.calls ∧
      documentValue? 6 found = some (.object [("attestations", .list [])])) ∧
    counting hex [about] = [about] := by
  intro hex about v altering silent c s p
  refine ⟨⟨["tmp", "custos-input-000000", "input.json"], StagedInput.bytes [], .now ⟨0, 0⟩, ?_, ?_⟩,
    rfl⟩
  · decide +kernel
  · exact documentValue?_bytes (List.forall_mem_nil _) (by decide)

end Pipeline
end ImagePolicy
