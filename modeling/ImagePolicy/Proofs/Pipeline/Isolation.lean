/-
# Runs one after the other

Runs on the same evaluators share how often each evaluator was asked, and the disk, and nothing
else. Of the disk nothing is told: the input is staged at a place of its own, the evaluators find
there what the writer puts there, and it is gone in the end. So the answer of a run is the answer of
the same run alone, if the evaluators start where the runs before have left them; and if no
evaluator minds how often it was asked, the answers come in the order of the runs, whatever it is.

What a run does is said once (`Leads`): it asks the verifier some questions, to which the session
has nothing to say but its token, and then it ends or goes on to the policy. That two runs are
alike, what they add to the turns, and what they leave, is shown along this.

Key definitions: `RunAnswer`, `Evaluator.SameAt`, `InputWriter.Placeless`, `Session.Like`, `Leads`,
`Call.asks`.
Key theorems: `Pipeline.run_leads`, `Leads.alike`, `Leads.tallied`, `Leads.cleared`,
`Pipeline.validateAll_get`, `Pipeline.validateAll_isolated`.
-/
import ImagePolicy.Proofs.Scratch.Disk
import ImagePolicy.Proofs.Pipeline.Influence

namespace ImagePolicy

/-! ### Answers -/

/-- The input that an evaluator is asked about. -/
def Call.input? : Call → Option Path
  | .evaluate _ input _ _ => some input
  | _ => none

/-- A call without the place of its input, which is another one in each run. -/
def Call.unplaced : Call → Call
  | .evaluate i _ document time => .evaluate i [] document time
  | call => call

/-- Whether a call asks an evaluator. -/
def Call.asks (i : Nat) : Call → Bool
  | .evaluate j _ _ _ => j = i
  | _ => false

/-- How often an evaluator is asked in calls. -/
def timesAsked (i : Nat) (calls : List Call) : Nat :=
  calls.countP (Call.asks i)

/-- What is told of a run: how it ended, the calls wherever their input stood, how many staged files
are left, and the token. -/
structure RunAnswer where
  verdict : Verdict
  calls : List Call
  left : Nat
  token : Token

/-- The staged files that a run leaves. -/
def RunRecord.left (r : RunRecord) : List Path :=
  (r.calls.filterMap Call.input?).filter fun p => (r.disk.fileContent? p).isSome

/-- What is told of a run that is on record. -/
def RunRecord.answer (r : RunRecord) : RunAnswer :=
  ⟨r.verdict, r.calls.map Call.unplaced, r.left.length, r.token⟩

/-! ### What collaborators go by -/

/-- At two turns an evaluator does the same, and it does so by the context, the token and the
document at its input: it replies the same, leaves the same token, and leaves the same document. -/
def Evaluator.SameAt (e : Evaluator) (turn₁ turn₂ : Nat) : Prop :=
  ∀ c t input₁ d₁ input₂ d₂, d₁.content? input₁ = d₂.content? input₂ →
    (e.evaluate turn₁ input₁ c t d₁).1 = (e.evaluate turn₂ input₂ c t d₂).1 ∧
      (e.evaluate turn₁ input₁ c t d₁).2.1 = (e.evaluate turn₂ input₂ c t d₂).2.1 ∧
      (e.evaluate turn₁ input₁ c t d₁).2.2.content? input₁ =
        (e.evaluate turn₂ input₂ c t d₂).2.2.content? input₂

/-- An evaluator goes by a script: what it does at a turn, it does wherever its input stands. -/
def Evaluator.Scripted (e : Evaluator) : Prop :=
  ∀ turn, e.SameAt turn turn

/-- An evaluator does the same at all turns. -/
def Evaluator.Unvarying (e : Evaluator) : Prop :=
  ∀ turn₁ turn₂, e.SameAt turn₁ turn₂

/-- The evaluator of a script, which tells at each turn what to reply and what to make of the
token. -/
def Evaluator.ofScript (script : Nat → Token → Reply (List CheckGroup) × Token) : Evaluator where
  evaluate turn _ _ t d := ((script turn t).1, (script turn t).2, d)

theorem scripted_ofScript (script : Nat → Token → Reply (List CheckGroup) × Token) :
    (Evaluator.ofScript script).Scripted :=
  fun _ _ _ _ _ _ _ hdocument => ⟨rfl, rfl, hdocument⟩

/-- All evaluators do the same at the turns of two sessions. -/
def SameTurns (es : List Evaluator) (turns₁ turns₂ : Nat → Nat) : Prop :=
  ∀ i (e : Evaluator), es[i]? = some e → e.SameAt (turns₁ i) (turns₂ i)

/-- The input is staged alike: it fails in the same way, or the same document stands where it is
staged. -/
inductive StagedAlike : Except VerificationError (StagedInput × Disk) →
    Except VerificationError (StagedInput × Disk) → Prop
  | failed (err : VerificationError) : StagedAlike (.error err) (.error err)
  | staged {input₁ input₂ : StagedInput} {d₁ d₂ : Disk} :
      d₁.content? input₁.path = d₂.content? input₂.path →
      StagedAlike (.ok (input₁, d₁)) (.ok (input₂, d₂))

/-- A writer stages the same input on every disk, wherever it puts it. -/
def InputWriter.Placeless (w : InputWriter) : Prop :=
  ∀ as d₁ d₂, StagedAlike (w as d₁) (w as d₂)

theorem jsonWriter_placeless : InputWriter.Placeless jsonWriter := fun as d₁ d₂ =>
  .staged ((StagedInput.content?_stage as d₁).trans (StagedInput.content?_stage as d₂).symm)

/-! ### Sessions that are alike -/

/-- Two sessions have the same token, and the same calls wherever their inputs stood. -/
structure Session.Like (s₁ s₂ : Session) : Prop where
  token : s₁.token = s₂.token
  calls : s₁.calls.map Call.unplaced = s₂.calls.map Call.unplaced

/-- The session after a question that leaves a token. -/
def Session.asked (s : Session) (call : Call) (t : Token) : Session :=
  { s.note call with token := t }

namespace Session.Like

variable {s₁ s₂ : Session}

theorem add {t₁ t₂ : Token} {turns₁ turns₂ : Nat → Nat} {d₁ d₂ : Disk} {call₁ call₂ : Call}
    (h : s₁.Like s₂) (htoken : t₁ = t₂) (hcall : call₁.unplaced = call₂.unplaced) :
    (⟨d₁, t₁, turns₁, s₁.calls ++ [call₁]⟩ : Session).Like
      ⟨d₂, t₂, turns₂, s₂.calls ++ [call₂]⟩ where
  token := htoken
  calls := by rw [List.map_append, List.map_append, h.calls, List.map_singleton, hcall,
    List.map_singleton]

theorem asked (h : s₁.Like s₂) (call : Call) (t : Token) :
    (s₁.asked call t).Like (s₂.asked call t) :=
  h.add rfl rfl

end Session.Like

/-- An evaluation in two sessions that are alike has the same reply, and leaves them alike, if the
evaluator does the same at both turns and finds the same document. -/
theorem evaluate_alike {s₁ s₂ : Session} {input₁ input₂ : Path} {index : Nat} {e : Evaluator}
    (c : PolicyContext) (hsame : e.SameAt (s₁.turns index) (s₂.turns index))
    (hdocument : s₁.disk.content? input₁ = s₂.disk.content? input₂) (hlike : s₁.Like s₂) :
    (s₁.evaluate index e input₁ c).1 = (s₂.evaluate index e input₂ c).1 ∧
      (s₁.evaluate index e input₁ c).2.disk.content? input₁ =
        (s₂.evaluate index e input₂ c).2.disk.content? input₂ ∧
      (s₁.evaluate index e input₁ c).2.Like (s₂.evaluate index e input₂ c).2 := by
  obtain ⟨hreply, htoken, hleft⟩ := hsame c s₁.token input₁ s₁.disk input₂ s₂.disk hdocument
  simp only [Session.evaluate, Session.note, ← hlike.token]
  refine ⟨hreply, hleft, hlike.add htoken ?_⟩
  simp only [Call.unplaced, hdocument]

namespace Pipeline

/-- Likewise for a row of evaluators. -/
theorem evaluateAll_alike {input₁ input₂ : Path} (c : PolicyContext) : ∀ (index : Nat)
    (es : List Evaluator) (s₁ s₂ : Session),
    (∀ k (e : Evaluator), es[k]? = some e →
      e.SameAt (s₁.turns (index + k)) (s₂.turns (index + k))) →
    s₁.disk.content? input₁ = s₂.disk.content? input₂ → s₁.Like s₂ →
    (evaluateAll input₁ c index es s₁).1 = (evaluateAll input₂ c index es s₂).1 ∧
      (evaluateAll input₁ c index es s₁).2.Like (evaluateAll input₂ c index es s₂).2
  | _, [], _, _, _, _, hlike => ⟨rfl, hlike⟩
  | index, e :: es, s₁, s₂, hsame, hdocument, hlike => by
    have hfirst : e.SameAt (s₁.turns index) (s₂.turns index) := hsame 0 e rfl
    obtain ⟨hr, hd, hl⟩ := evaluate_alike c hfirst hdocument hlike
    have hs : ∀ k (f : Evaluator), es[k]? = some f →
        f.SameAt ((s₁.evaluate index e input₁ c).2.turns (index + 1 + k))
          ((s₂.evaluate index e input₂ c).2.turns (index + 1 + k)) := by
      intro k f hf
      rw [turns_evaluate_behind, turns_evaluate_behind]
      exact hsame (k + 1) f hf
    have ih := evaluateAll_alike c (index + 1) es _ _ hs hd hl
    unfold evaluateAll
    rcases hr₁ : s₁.evaluate index e input₁ c with ⟨reply₁, next₁⟩
    rcases hr₂ : s₂.evaluate index e input₂ c with ⟨reply₂, next₂⟩
    rw [hr₁, hr₂] at hr hl ih
    obtain rfl : reply₁ = reply₂ := hr
    rcases reply₁ with err | groups
    · exact ⟨rfl, hl⟩
    · obtain ⟨hresults, hlast⟩ := ih
      simp only at hresults hlast ⊢
      rcases h₁ : evaluateAll input₁ c (index + 1) es next₁ with ⟨results₁, last₁⟩
      rcases h₂ : evaluateAll input₂ c (index + 1) es next₂ with ⟨results₂, last₂⟩
      rw [h₁, h₂] at hresults hlast
      obtain rfl : results₁ = results₂ := hresults
      rcases results₁ with err | more <;> exact ⟨rfl, hlast⟩

/-- Likewise for the policy, if the input is staged alike. -/
theorem evaluatePolicy_alike {p : Pipeline} {report : Report} {c : PolicyContext}
    {as : List Attestation} {s₁ s₂ : Session} (hw : p.writer.Placeless)
    (hsame : SameTurns p.evaluators s₁.turns s₂.turns) (hlike : s₁.Like s₂) :
    (p.evaluatePolicy report c as s₁).1 = (p.evaluatePolicy report c as s₂).1 ∧
      (p.evaluatePolicy report c as s₁).2.Like (p.evaluatePolicy report c as s₂).2 := by
  have hstaging : StagedAlike (p.writer as s₁.disk) (p.writer as s₂.disk) := hw _ _ _
  unfold evaluatePolicy
  simp only [Session.note]
  generalize p.writer as s₁.disk = staging₁ at hstaging
  generalize p.writer as s₂.disk = staging₂ at hstaging
  cases hstaging with
  | failed err => exact ⟨rfl, hlike.add hlike.token rfl⟩
  | @staged input₁ input₂ d₁ d₂ hdocument =>
    have hnoted : Session.Like ⟨d₁, s₁.token, s₁.turns, s₁.calls ++ [.writeInput as.length]⟩
        ⟨d₂, s₂.token, s₂.turns, s₂.calls ++ [.writeInput as.length]⟩ :=
      hlike.add hlike.token rfl
    obtain ⟨hresults, hl⟩ := evaluateAll_alike c 0 p.evaluators _ _
      (fun k e he => by simpa only [Nat.zero_add] using hsame k e he) hdocument hnoted
    exact ⟨congrArg (classified report c) hresults, hl.token, hl.calls⟩

end Pipeline

/-! ### What a run does -/

/-- A part of a run that starts with a token asks questions, none of them of an evaluator, and then
it ends or goes on to the policy. Of the session it only goes by the token. -/
inductive Leads (p : Pipeline) : Token → (Session → Verdict × Session) → Prop
  | ends {t : Token} (verdict : Verdict) : Leads p t fun s => (verdict, s)
  | judges {t : Token} (report : Report) (c : PolicyContext) (as : List Attestation) :
      Leads p t (p.evaluatePolicy report c as)
  | asks {t t' : Token} {call : Call} {part rest : Session → Verdict × Session} :
      call.input? = none → Leads p t' rest →
      (∀ s, s.token = t → part s = rest (s.asked call t')) → Leads p t part

namespace Pipeline

variable {p : Pipeline}

theorem ask_eq {α : Type} {question : Ask α} {reply : Reply α} {t t' : Token} (call : Call)
    (h : question t = (reply, t')) :
    ∀ s : Session, s.token = t → s.ask call question = (reply, s.asked call t') := by
  rintro s rfl
  rw [Session.ask, h]
  rfl

theorem judge_leads (report : Report) (image : ImageReference) (c : PolicyContext)
    (signatures : Reply (List Signature)) (as : List Attestation) (t : Token) :
    Leads p t (p.judge report image c signatures as) := by
  unfold judge
  simp only
  split
  · exact .ends _
  · exact .judges _ _ _

theorem verifyAttestations_leads (report : Report) (image : ImageReference) (c : PolicyContext)
    (signatures : Reply (List Signature)) (t : Token) :
    Leads p t (p.verifyAttestations report image c signatures) := by
  rcases hq : p.verifier.attestations image c t with ⟨reply, t'⟩
  have hask := ask_eq (.attestations image c.publicKey c.rekorUrl) hq
  rcases reply with err | as
  · cases err <;> exact .asks rfl (.ends _) fun s hs => by rw [verifyAttestations, hask s hs]
  · exact .asks rfl (judge_leads report image c signatures as t') fun s hs => by
      rw [verifyAttestations, hask s hs]

theorem verifySignatures_leads (report : Report) (image : ImageReference) (c : PolicyContext)
    (t : Token) : Leads p t (p.verifySignatures report image c) := by
  rcases hq : p.verifier.imageSignatures image c t with ⟨reply, t'⟩
  have hask := ask_eq (.imageSignatures image c.publicKey c.rekorUrl) hq
  have hrest := verifyAttestations_leads (p := p)
    { report with imageSignature := some (signatureStatus reply) } image c reply t'
  rcases reply with (_ | _ | _) | signatures
  · exact .asks rfl hrest fun s hs => by rw [verifySignatures, hask s hs]
  · exact .asks rfl (.ends _) fun s hs => by rw [verifySignatures, hask s hs]
  · exact .asks rfl hrest fun s hs => by rw [verifySignatures, hask s hs]
  · exact .asks rfl hrest fun s hs => by rw [verifySignatures, hask s hs]

theorem resolveDigest_leads (report : Report) (image : ImageReference) (c : PolicyContext)
    (t : Token) : Leads p t (p.resolveDigest report image c) := by
  rcases hq : p.verifier.digest image t with ⟨err | digest, t'⟩
  · exact .asks rfl (.ends _) fun s hs => by rw [resolveDigest, ask_eq (.digest image) hq s hs]
  · have hask := ask_eq (.digest image) hq
    cases hresolve : image.resolve digest with
    | error fault =>
      exact .asks rfl (.ends _) fun s hs => by
        simp only [resolveDigest, hask s hs, hresolve]
        rfl
    | ok resolved =>
      exact .asks rfl (verifySignatures_leads _ resolved c t') fun s hs => by
        simp only [resolveDigest, hask s hs, hresolve]
        rfl

theorem probe_leads (url : String) (image : ImageReference) (c : PolicyContext) (t : Token) :
    Leads p t (p.probe url image c) := by
  rcases hq : p.verifier.probe image t with ⟨reply, t'⟩
  have hask := ask_eq (.probe image) hq
  rcases reply with err | ⟨⟩
  · cases err <;> exact .asks rfl (.ends _) fun s hs => by rw [probe, hask s hs]
  · exact .asks rfl (resolveDigest_leads _ image c t') fun s hs => by rw [probe, hask s hs]

/-- **What a run does**: it asks questions, and then it ends or goes on to the policy. -/
theorem run_leads (p : Pipeline) (url : String) (c : PolicyContext) (t : Token) :
    Leads p t (p.run url c) := by
  unfold run
  cases ImageReference.parse url with
  | error fault => exact .ends _
  | ok image => exact probe_leads url image c t

end Pipeline

/-! ### What follows for a run -/

/-- The turns after a session go on by as many as the new calls ask the evaluators. -/
def Session.Tallied (s next : Session) : Prop :=
  ∀ i, next.turns i + timesAsked i s.calls = s.turns i + timesAsked i next.calls

/-- There is no file at the input of a call. -/
def Call.Cleared (d : Disk) (call : Call) : Prop :=
  ∀ input, call.input? = some input → d.node? input = none

theorem Call.cleared_of_none {d : Disk} {call : Call} (h : call.input? = none) :
    call.Cleared d := by
  intro input hinput
  rw [h] at hinput
  cases hinput

theorem timesAsked_append (i : Nat) (calls more : List Call) :
    timesAsked i (calls ++ more) = timesAsked i calls + timesAsked i more :=
  List.countP_append

theorem timesAsked_eq_zero {i : Nat} {calls : List Call} (h : ∀ call ∈ calls, call.input? = none) :
    timesAsked i calls = 0 := by
  refine List.countP_eq_zero.mpr fun call hcall => ?_
  cases call with
  | evaluate _ _ _ _ => cases h _ hcall
  | _ => exact Bool.false_ne_true

namespace Session.Tallied

variable {s next last : Session}

theorem trans (h : s.Tallied next) (h' : next.Tallied last) : s.Tallied last := by
  intro i
  have hfirst := h i
  have hsecond := h' i
  omega

theorem of_calls (hturns : next.turns = s.turns) {more : List Call}
    (hcalls : next.calls = s.calls ++ more) (hmore : ∀ call ∈ more, call.input? = none) :
    s.Tallied next := by
  intro i
  rw [hturns, hcalls, timesAsked_append, timesAsked_eq_zero hmore, Nat.add_zero]

theorem evaluate (s : Session) (index : Nat) (e : Evaluator) (input : Path) (c : PolicyContext) :
    s.Tallied (s.evaluate index e input c).2 := by
  intro i
  by_cases hi : i = index
  · subst hi
    simp only [Session.evaluate, Session.note, timesAsked_append, if_pos]
    simp [timesAsked, Call.asks]
    omega
  · have hne : ¬index = i := fun h => hi h.symm
    simp [Session.evaluate, Session.note, hi, timesAsked, Call.asks, hne]

end Session.Tallied

namespace Pipeline

/-- What each evaluation keeps is kept by all of them. -/
theorem evaluateAll_keeps {P : Session → Prop} {input : Path} {c : PolicyContext}
    (hstep : ∀ s index e, P s → P (s.evaluate index e input c).2) : ∀ (index : Nat)
    (es : List Evaluator) (s : Session), P s → P (evaluateAll input c index es s).2
  | _, [], _, h => h
  | index, e :: es, s, h => by
    have hfirst := hstep s index e h
    have ih := evaluateAll_keeps hstep (index + 1) es _ hfirst
    unfold evaluateAll
    rcases hr : s.evaluate index e input c with ⟨err | groups, next⟩
    · rw [hr] at hfirst
      exact hfirst
    · rw [hr] at ih
      simp only at ih ⊢
      rcases hrest : evaluateAll input c (index + 1) es next with ⟨err | more, last⟩ <;>
        · rw [hrest] at ih
          exact ih

theorem evaluateAll_tallied (input : Path) (c : PolicyContext) (es : List Evaluator) (s : Session) :
    s.Tallied (evaluateAll input c 0 es s).2 :=
  evaluateAll_keeps (fun _ _ _ h => h.trans (.evaluate _ _ _ _ _)) 0 es s fun _ => rfl

theorem evaluateAll_input (input : Path) (c : PolicyContext) (es : List Evaluator) (s : Session) :
    ∀ call ∈ (evaluateAll input c 0 es s).2.calls, call ∈ s.calls ∨ call.input? = some input := by
  refine evaluateAll_keeps
    (P := fun next => ∀ call ∈ next.calls, call ∈ s.calls ∨ call.input? = some input) ?_ 0 es s
    fun _ h => .inl h
  intro next index e h call hcall
  rcases List.mem_append.mp hcall with hold | hnew
  · exact h call hold
  · obtain rfl := List.mem_singleton.mp hnew
    exact .inr rfl

variable {p : Pipeline} {report : Report} {c : PolicyContext} {as : List Attestation}

theorem evaluatePolicy_tallied (s : Session) : s.Tallied (p.evaluatePolicy report c as s).2 := by
  have hstaging : ∀ d : Disk, s.Tallied { s.note (.writeInput as.length) with disk := d } :=
    fun d => .of_calls rfl rfl (by simp [Call.input?])
  unfold evaluatePolicy
  simp only
  rcases p.writer as (s.note (.writeInput as.length)).disk with err | ⟨staged, disk⟩
  · exact hstaging _
  · exact (hstaging disk).trans (evaluateAll_tallied _ _ _ _)

/-- The policy leaves no file at the inputs of its calls. -/
theorem evaluatePolicy_cleared (s : Session) :
    ∀ call ∈ (p.evaluatePolicy report c as s).2.calls,
      call ∈ s.calls ∨ call.Cleared (p.evaluatePolicy report c as s).2.disk := by
  have hnote : ∀ call ∈ s.calls ++ [Call.writeInput as.length],
      call ∈ s.calls ∨ call.input? = none := by
    intro call hcall
    rcases List.mem_append.mp hcall with hold | hnew
    · exact .inl hold
    · obtain rfl := List.mem_singleton.mp hnew
      exact .inr rfl
  unfold evaluatePolicy
  simp only
  rcases p.writer as (s.note (.writeInput as.length)).disk with err | ⟨staged, disk⟩
  · exact fun call hcall => (hnote call hcall).imp_right Call.cleared_of_none
  · intro call hcall
    rcases evaluateAll_input staged.path c p.evaluators _ call hcall with hold | hinput
    · exact (hnote call hold).imp_right Call.cleared_of_none
    · refine .inr fun input hthis => ?_
      obtain rfl : staged.path = input := Option.some.inj (hinput.symm.trans hthis)
      exact staged.node?_release _

end Pipeline

namespace Leads

variable {p : Pipeline} {t : Token} {part : Session → Verdict × Session}

/-- **Runs in sessions that are alike end alike**, and leave sessions that are alike. -/
theorem alike (h : Leads p t part) (hw : p.writer.Placeless) {s₁ s₂ : Session} (ht : s₁.token = t)
    (hlike : s₁.Like s₂) (hsame : SameTurns p.evaluators s₁.turns s₂.turns) :
    (part s₁).1 = (part s₂).1 ∧ (part s₁).2.Like (part s₂).2 := by
  induction h generalizing s₁ s₂ with
  | ends verdict => exact ⟨rfl, hlike⟩
  | judges report c as => exact Pipeline.evaluatePolicy_alike hw hsame hlike
  | asks _ _ hpart ih =>
    rw [hpart s₁ ht, hpart s₂ (hlike.token ▸ ht)]
    exact ih rfl (hlike.asked _ _) hsame

/-- **The turns go on by the evaluations of a run**, however it ends. -/
theorem tallied (h : Leads p t part) {s : Session} (ht : s.token = t) : s.Tallied (part s).2 := by
  induction h generalizing s with
  | ends verdict => exact fun _ => rfl
  | judges report c as => exact Pipeline.evaluatePolicy_tallied s
  | asks hcall _ hpart ih =>
    rw [hpart s ht]
    refine Session.Tallied.trans ?_ (ih rfl)
    exact .of_calls rfl rfl (by simpa using hcall)

/-- **No file is left at the input of a call**, if there were no calls before. -/
theorem cleared (h : Leads p t part) {s : Session} (ht : s.token = t)
    (hcalls : ∀ call ∈ s.calls, call.input? = none) :
    ∀ call ∈ (part s).2.calls, call.Cleared (part s).2.disk := by
  induction h generalizing s with
  | ends verdict => exact fun call hcall => Call.cleared_of_none (hcalls call hcall)
  | judges report c as =>
    intro call hcall
    exact (Pipeline.evaluatePolicy_cleared s call hcall).elim
      (fun hold => Call.cleared_of_none (hcalls call hold)) id
  | asks hcall _ hpart ih =>
    rw [hpart s ht]
    refine ih rfl fun call hmem => ?_
    rcases List.mem_append.mp hmem with hold | hnew
    · exact hcalls call hold
    · obtain rfl := List.mem_singleton.mp hnew
      exact hcall

end Leads

/-! ### A run that is on record -/

namespace Pipeline

variable {es : List Evaluator} {c : PolicyContext} {r : ImageRun}

/-- A run that is on record leaves no staged file. -/
theorem validateRun_left (s : Session) : (validateRun es c r s).1.left = [] := by
  have hleads := run_leads ⟨r.verifier, es, r.writer⟩ r.url c { cancelled := r.cancelled }
  have hcleared := hleads.cleared
    (s := { s with token := { cancelled := r.cancelled }, calls := [] }) rfl (List.forall_mem_nil _)
  refine List.filter_eq_nil_iff.mpr fun input hinput => ?_
  obtain ⟨call, hcall, hthis⟩ := List.mem_filterMap.mp hinput
  have hnode : (validateRun es c r s).1.disk.node? input = none := by
    rcases List.mem_append.mp hcall with hcall | hrelease
    · exact hcleared call hcall input hthis
    · obtain ⟨i, -, rfl⟩ := List.mem_map.mp hrelease
      cases hthis
  simp [Disk.fileContent?, hnode]

/-- **The answer of a run is a matter of what its evaluators do at their turns.** -/
theorem validateRun_answer (hw : r.writer.Placeless) {s₁ s₂ : Session}
    (hsame : SameTurns es s₁.turns s₂.turns) :
    (validateRun es c r s₁).1.answer = (validateRun es c r s₂).1.answer := by
  have hleads := run_leads ⟨r.verifier, es, r.writer⟩ r.url c { cancelled := r.cancelled }
  have hstart : Session.Like { s₁ with token := { cancelled := r.cancelled }, calls := [] }
      { s₂ with token := { cancelled := r.cancelled }, calls := [] } := ⟨rfl, rfl⟩
  obtain ⟨hverdict, htoken, hcalls⟩ := hleads.alike hw rfl hstart hsame
  have hall : (validateRun es c r s₁).1.calls.map Call.unplaced =
      (validateRun es c r s₂).1.calls.map Call.unplaced := by
    simp only [validateRun, validate, Session.releaseAll, List.map_append]
    rw [hcalls]
  rw [RunRecord.answer, RunRecord.answer, validateRun_left, validateRun_left, hall]
  simp only [validateRun, validate, Session.releaseAll, hverdict, htoken]

/-- After a run the turns have gone on by its evaluations. -/
theorem validateRun_turns (s : Session) (i : Nat) : (validateRun es c r s).2.turns i =
    s.turns i + timesAsked i (validateRun es c r s).1.calls := by
  have hleads := run_leads ⟨r.verifier, es, r.writer⟩ r.url c { cancelled := r.cancelled }
  have htallied := hleads.tallied
    (s := { s with token := { cancelled := r.cancelled }, calls := [] }) rfl i
  have hrelease : timesAsked i ((List.range es.length).map Call.release) = 0 :=
    timesAsked_eq_zero (by simp [Call.input?])
  have hnone : timesAsked i [] = 0 := rfl
  simp only [validateRun, validate, Session.releaseAll, timesAsked_append, hrelease, Nat.add_zero]
  simpa only [hnone, Nat.add_zero] using htallied

/-! ### Runs on record -/

/-- A run in a row is the run in a session where the turns have gone on by the evaluations of the
runs before. -/
theorem validateAll_get (es : List Evaluator) (c : PolicyContext) : ∀ (runs : List ImageRun)
    (s : Session) {k : Nat} {r : ImageRun}, runs[k]? = some r → ∃ before : Session,
      (validateAll es c runs s).1[k]? = some (validateRun es c r before).1 ∧
      ∀ i, before.turns i = s.turns i +
        timesAsked i (((validateAll es c runs s).1.take k).flatMap RunRecord.calls)
  | first :: runs, s, 0, r, h => by
    obtain rfl : first = r := Option.some.inj h
    exact ⟨s, rfl, fun _ => rfl⟩
  | first :: runs, s, k + 1, r, h => by
    obtain ⟨before, hrecord, hturns⟩ :=
      validateAll_get es c runs (validateRun es c first s).2 (k := k) (r := r) h
    refine ⟨before, hrecord, fun i => ?_⟩
    have hcalls : ((validateAll es c (first :: runs) s).1.take (k + 1)).flatMap RunRecord.calls =
        (validateRun es c first s).1.calls ++
          ((validateAll es c runs (validateRun es c first s).2).1.take k).flatMap
            RunRecord.calls := rfl
    rw [hturns, validateRun_turns, hcalls, timesAsked_append, Nat.add_assoc]

theorem length_validateAll : ∀ (runs : List ImageRun) (s : Session),
    (validateAll es c runs s).1.length = runs.length
  | [], _ => rfl
  | r :: runs, s => congrArg Nat.succ (length_validateAll runs (validateRun es c r s).2)

/-- The answers of runs one after the other. -/
def answers (es : List Evaluator) (c : PolicyContext) (runs : List ImageRun) (s : Session) :
    List RunAnswer :=
  (validateAll es c runs s).1.map RunRecord.answer

/-- The answer of a run alone, on a disk and with evaluators that start at their turns. -/
def alone (es : List Evaluator) (c : PolicyContext) (d : Disk) (turns : Nat → Nat) (r : ImageRun) :
    RunAnswer :=
  (validateRun es c r ⟨d, {}, turns, []⟩).1.answer

/-- Evaluators that do the same at all turns answer each run as if it were alone. -/
theorem answers_of_unvarying {runs : List ImageRun} (hes : ∀ e ∈ es, e.Unvarying)
    (hruns : ∀ r ∈ runs, r.writer.Placeless) (s : Session) (d : Disk) (turns : Nat → Nat) :
    answers es c runs s = runs.map (alone es c d turns) := by
  refine List.ext_getElem? fun k => ?_
  rw [answers, List.getElem?_map, List.getElem?_map]
  cases hr : runs[k]? with
  | none =>
    have hlong : runs.length ≤ k := List.getElem?_eq_none_iff.mp hr
    have hnone : (validateAll es c runs s).1[k]? = none := by
      rw [List.getElem?_eq_none_iff, length_validateAll]
      exact hlong
    rw [hnone]
    rfl
  | some r =>
    obtain ⟨before, hrecord, -⟩ := validateAll_get es c runs s hr
    rw [hrecord]
    have hsame : SameTurns es before.turns turns :=
      fun i e he => hes e (List.mem_of_getElem? he) _ _
    exact congrArg some (validateRun_answer (hruns r (List.mem_of_getElem? hr)) hsame)

/-- **Runs on the same evaluators are isolated.** Let the evaluators go by scripts. Then each of
some runs, one after the other, has the answer that it has alone, on a disk of its own, if every
evaluator starts at the turn where the evaluations of the runs before have left it. And if the
evaluators do the same at all turns, each run has the answer that it has alone, so the runs in
another order have the same answers in that order. -/
theorem validateAll_isolated {runs : List ImageRun} (hes : ∀ e ∈ es, e.Scripted)
    (hruns : ∀ r ∈ runs, r.writer.Placeless) (c : PolicyContext) (s : Session) (d : Disk) :
    (answers es c runs s).length = runs.length ∧
      (∀ k r, runs[k]? = some r →
        let earlier := ((validateAll es c runs s).1.take k).flatMap RunRecord.calls
        (answers es c runs s)[k]? =
          some (alone es c d (fun i => s.turns i + timesAsked i earlier) r)) ∧
      ((∀ e ∈ es, e.Unvarying) → ∀ runs', runs'.Perm runs → ∀ turns,
        answers es c runs s = runs.map (alone es c d turns) ∧
        answers es c runs' s = runs'.map (alone es c d turns) ∧
        (answers es c runs' s).Perm (answers es c runs s)) := by
  refine ⟨?_, fun k r hr => ?_, fun hunvarying runs' hperm turns => ?_⟩
  · rw [answers, List.length_map, length_validateAll]
  · intro earlier
    obtain ⟨before, hrecord, hturns⟩ := validateAll_get es c runs s hr
    have hreached : before.turns = fun i => s.turns i + timesAsked i earlier := funext hturns
    rw [answers, List.getElem?_map, hrecord, ← hreached]
    have hsame : SameTurns es before.turns before.turns :=
      fun i e he => hes e (List.mem_of_getElem? he) _
    exact congrArg some (validateRun_answer (hruns r (List.mem_of_getElem? hr)) hsame)
  · have hruns' : ∀ r ∈ runs', r.writer.Placeless := fun r hr => hruns r (hperm.mem_iff.mp hr)
    have hfirst := answers_of_unvarying (c := c) hunvarying hruns s d turns
    have hsecond := answers_of_unvarying (c := c) hunvarying hruns' s d turns
    refine ⟨hfirst, hsecond, ?_⟩
    rw [hfirst, hsecond]
    exact hperm.map _

/-- An evaluator finds a failure when it is asked first, and a success from then on. The second run
on it has the answer that it has alone, with an evaluator that was asked once. -/
theorem validateAll_isolated_second :
    let hex := String.ofList (List.replicate 64 'a')
    let about : Attestation := {
      statement := .object [
        ("_type", .text "https://in-toto.io/Statement/v1"), ("predicate", .object []),
        ("predicateType", .text "https://slsa.dev/provenance/v1"),
        ("subject", .list [.object [("digest", .object [("sha256", .text hex)])]])] }
    let r : ImageRun := {
      url := "localhost/app:1"
      verifier := (replying ("sha256:" ++ hex) (.ok []) (.ok [about]) []).verifier
      writer := jsonWriter }
    let e := Evaluator.ofScript fun turn t =>
      (.ok [if turn = 0 then { failures := [{ message := "late" }] }
        else { successes := [{ message := "built" }] }], t)
    let c : PolicyContext := ⟨"key", none, [], [], [], [], [], .now ⟨0, 0⟩⟩
    let s := Session.initial ⟨[], 0, []⟩
    ∃ turns : Nat → Nat, turns 0 = 1 ∧
      (answers [e] c [r, r] s)[1]? = some (alone [e] c Disk.blank turns r) ∧
      (alone [e] c Disk.blank turns r).verdict.toOption.map Report.passed = some true := by
  intro hex about r e c s
  have hes : ∀ f ∈ [e], f.Scripted := List.forall_mem_singleton.mpr (scripted_ofScript _)
  have hruns : ∀ f ∈ [r, r], f.writer.Placeless :=
    List.forall_mem_cons.mpr ⟨jsonWriter_placeless,
      List.forall_mem_singleton.mpr jsonWriter_placeless⟩
  obtain ⟨-, hanswers, -⟩ := validateAll_isolated hes hruns c s Disk.blank
  exact ⟨_, by decide +kernel, hanswers 1 r rfl, by decide +kernel⟩

end Pipeline
end ImagePolicy
