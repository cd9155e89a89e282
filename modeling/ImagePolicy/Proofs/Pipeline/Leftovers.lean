/-
# What a run leaves on the disk

A run stages its input, asks its rule engines one after the other until one fails, and removes the
input. Each engine that is a command makes a workspace of its own, unless the token was cancelled
before. What is left in the end, however the run ends, is a workspace for each command that was to
retain it, and nothing else.

Here the engines of a run are scripts and commands in any mix. What a run does on the disk is said
once (`Course`): either it stages nothing and asks no engine, or it stages its input, the engines
are visited (`Visits`), and the input is released.

The programs that the commands start share the disk, and one of them may remove the workspace that
another command has left, or make one by its name (`Pipeline.workspaces_moved`). So what is left is
said path by path, for those paths where no program that the run has started does so
(`Visit.Alters`). Of scratch directories it is only used that one gets a name that is free when it
is made (`Named`).

Key definitions: `RuleEngine`, `Visit`, `Visits`, `Course`, `Named`, `Standing`, `Leftovers`.
Key theorems: `Visit.standing`, `Standing.append`, `Visits.standing`, `Visits.named`,
`Pipeline.run_course`, `Course.leftovers`, `Pipeline.validate_leftovers`.
-/
import ImagePolicy.Proofs.Scratch.Workspaces
import ImagePolicy.Proofs.Pipeline.Isolation

namespace ImagePolicy

/-! ### Rule engines -/

/-- A rule engine that goes by a script of replies, or one that is a command. -/
inductive RuleEngine where
  | script (replies : Nat → Token → Reply (List CheckGroup) × Token)
  | command (cmd : EngineCommand)

/-- The evaluator of a rule engine. -/
def RuleEngine.evaluator (host : Host) : RuleEngine → Evaluator
  | .script replies => .ofScript replies
  | .command cmd => cmd.evaluator host

/-- Whatever a writer stages, it stages as JSON; it may also fail. -/
def InputWriter.StagesJson (writer : InputWriter) : Prop :=
  ∀ as d staged, writer as d = .ok staged → staged = StagedInput.stage as d

theorem jsonWriter_stagesJson : InputWriter.StagesJson jsonWriter := by
  rintro as d staged ⟨⟩
  rfl

theorem InputWriter.StagesJson.staged_eq {writer : InputWriter} (h : writer.StagesJson)
    {as : List Attestation} {d disk : Disk} {staged : StagedInput}
    (hwrite : writer as d = .ok (staged, disk)) :
    staged = (StagedInput.stage as d).1 ∧ disk = (StagedInput.stage as d).2 :=
  Prod.ext_iff.mp (h as d _ hwrite)

/-! ### Visits -/

/-- A rule engine is asked about an input in a session. -/
structure Visit where
  index : Nat
  engine : RuleEngine
  input : Path
  context : PolicyContext
  session : Session

namespace Visit

variable {host : Host} {v : Visit} {w : Workspace} {p : Path}

/-- The reply of a visit, and the session after it. -/
def outcome (host : Host) (v : Visit) : Reply (List CheckGroup) × Session :=
  v.session.evaluate v.index (v.engine.evaluator host) v.input v.context

/-- The workspace that is made at a visit: by a command, unless the token is cancelled. -/
def workspace? (v : Visit) : Option Workspace :=
  match v.engine with
  | .script _ => none
  | .command cmd =>
    if v.session.token.cancelled then none else some (Workspace.create cmd.retain v.session.disk).1

/-- The root of the workspace of a visit, if it is to be retained. -/
def retained (v : Visit) : List Path :=
  ((v.workspace?.filter Workspace.retain).map Workspace.root).toList

/-- The disk that a program is started on at a visit, and how the program ends, if it comes to
that. -/
def started? (host : Host) (v : Visit) : Option (Disk × Finished) :=
  match v.engine with
  | .script _ => none
  | .command cmd =>
    cmd.started? host [v.input] v.context v.session.token v.session.disk

/-- The program that is started at a visit makes a workspace at a path, or removes the one that
stands there. -/
def Alters (host : Host) (v : Visit) (p : Path) : Prop :=
  ∃ d f, v.started? host = some (d, f) ∧ ¬(f.disk.HoldsWorkspace p ↔ d.HoldsWorkspace p)

/-- The program that is started at a visit leaves numbers that are still to be given free. -/
def LeavesNumbers (host : Host) (v : Visit) : Prop :=
  ∀ d f, v.started? host = some (d, f) → d.Fresh → f.disk.Fresh

theorem mem_retained_iff : p ∈ v.retained ↔ ∃ w ∈ v.workspace?, w.retain = true ∧ w.root = p := by
  simp [retained, and_assoc]

theorem count_retained_le (v : Visit) (p : Path) : v.retained.count p ≤ 1 := by
  refine List.count_le_length.trans ?_
  cases h : v.workspace?.filter Workspace.retain <;> simp [retained, h]

/-- Who is visited with a cancelled token leaves the disk as it is. -/
theorem disk_outcome_cancelled (h : v.session.token.cancelled = true) :
    (v.outcome host).2.disk = v.session.disk := by
  rcases v with ⟨index, replies | cmd, input, c, s⟩
  · rfl
  · have hevaluate : (cmd.evaluate host [input] c s.token s.disk).2 = s.disk := by
      rw [EngineCommand.evaluate_cancelled h]
    exact hevaluate

/-- A visit without a workspace leaves the disk as it is. -/
theorem disk_outcome_of_none (h : v.workspace? = none) :
    (v.outcome host).2.disk = v.session.disk := by
  rcases v with ⟨index, replies | cmd, input, c, s⟩
  · rfl
  · refine disk_outcome_cancelled ?_
    simpa [workspace?] using h

/-- A workspace is made for the evaluation of a command whose token is not cancelled. -/
theorem exists_evaluation (host : Host) (h : v.workspace? = some w) : ∃ cmd : EngineCommand,
    v.session.token.cancelled = false ∧ w = (Workspace.create cmd.retain v.session.disk).1 ∧
      v.started? host = cmd.started? host [v.input] v.context v.session.token v.session.disk ∧
      (v.outcome host).2.disk =
        (cmd.evaluate host [v.input] v.context v.session.token v.session.disk).2 := by
  rcases v with ⟨index, replies | cmd, input, c, s⟩
  · cases h
  · cases ht : s.token.cancelled with
    | true => simp [workspace?, ht] at h
    | false =>
      have hmade : (Workspace.create cmd.retain s.disk).1 = w := by simpa [workspace?, ht] using h
      exact ⟨cmd, rfl, hmade.symm, rfl, rfl⟩

/-- Nothing is left of a workspace that is not to be retained. -/
theorem node?_outcome (hw : v.workspace? = some w) (hretain : w.retain = false)
    (hp : Disk.within w.root p = true) : (v.outcome host).2.disk.node? p = none := by
  obtain ⟨cmd, ht, rfl, -, hdisk⟩ := exists_evaluation host hw
  rw [hdisk]
  exact EngineCommand.node?_evaluate ht hretain hp

/-- Numbers that are still to be given stay free if the program leaves them so. -/
theorem fresh_outcome (hleaves : v.LeavesNumbers host) (hfresh : v.session.disk.Fresh) :
    (v.outcome host).2.disk.Fresh := by
  cases hw : v.workspace? with
  | none => exact (disk_outcome_of_none hw).symm ▸ hfresh
  | some w =>
    obtain ⟨cmd, ht, -, hstarted, hdisk⟩ := exists_evaluation host hw
    rw [LeavesNumbers, hstarted] at hleaves
    rw [hdisk]
    exact EngineCommand.fresh_evaluate ht hleaves hfresh

/-- On a disk where the numbers to be given are free a workspace gets a free name. -/
theorem free_of_fresh (hw : v.workspace? = some w) (hfresh : v.session.disk.Fresh) :
    ¬v.session.disk.HoldsWorkspace w.root := by
  obtain ⟨cmd, -, rfl, -, -⟩ := exists_evaluation (fun _ _ => none) hw
  exact hfresh _ (Nat.le_refl _)

end Visit

/-! ### What stands after visits -/

/-- Every workspace of some visits is made under a name that is free then: nothing stands there yet
that could be taken for it. -/
def Named (visits : List Visit) : Prop :=
  ∀ v ∈ visits, ∀ w ∈ v.workspace?, ¬v.session.disk.HoldsWorkspace w.root

/-- What visits come to at a path, from one disk to another. A workspace stands there just if it did
before or one of the visits retains it; no two of them retain the same; and where a visit makes one,
to be retained or not, none stood before. -/
structure Standing (d d' : Disk) (visits : List Visit) (p : Path) : Prop where
  holds : d'.HoldsWorkspace p ↔ d.HoldsWorkspace p ∨ p ∈ visits.flatMap Visit.retained
  own : (visits.flatMap Visit.retained).count p ≤ 1
  new : ∀ v ∈ visits, ∀ w ∈ v.workspace?, w.root = p → ¬d.HoldsWorkspace p

namespace Standing

variable {d d' d'' : Disk} {visits more : List Visit} {p : Path}

/-- Where nothing is visited and no workspace is gained, what stood stands. -/
theorem of_gains (h : d.Gains d' []) : Standing d d' [] p where
  holds := h.holds p
  own := Nat.zero_le _
  new := List.forall_mem_nil _

/-- A path that is retained by a visit had no workspace before. -/
theorem not_holds (h : Standing d d' visits p) (hp : p ∈ visits.flatMap Visit.retained) :
    ¬d.HoldsWorkspace p := by
  obtain ⟨v, hv, hp⟩ := List.mem_flatMap.mp hp
  obtain ⟨w, hw, -, hroot⟩ := Visit.mem_retained_iff.mp hp
  exact h.new v hv w hw hroot

/-- **What some visits come to, and then others, adds up.** -/
theorem append (h : Standing d d' visits p) (h' : Standing d' d'' more p) :
    Standing d d'' (visits ++ more) p where
  holds := by rw [h'.holds, h.holds, List.flatMap_append, List.mem_append, or_assoc]
  own := by
    rw [List.flatMap_append, List.count_append]
    by_cases hmore : p ∈ more.flatMap Visit.retained
    · -- where a later visit retains a workspace, none was retained before
      have hfirst : p ∉ visits.flatMap Visit.retained := fun hp =>
        h'.not_holds hmore (h.holds.mpr (.inr hp))
      rw [List.count_eq_zero.mpr hfirst, Nat.zero_add]
      exact h'.own
    · rw [List.count_eq_zero.mpr hmore, Nat.add_zero]
      exact h.own
  new v hv w hw hroot hp := by
    rcases List.mem_append.mp hv with hv | hv
    · exact h.new v hv w hw hroot hp
    · exact h'.new v hv w hw hroot (h.holds.mpr (.inl hp))

end Standing

/-- **A visit leaves its workspace if it is to be retained**, and otherwise none, where its program
alters nothing. -/
theorem Visit.standing {host : Host} {v : Visit} {p : Path}
    (hfree : ∀ w ∈ v.workspace?, ¬v.session.disk.HoldsWorkspace w.root)
    (halters : ¬v.Alters host p) :
    Standing v.session.disk (v.outcome host).2.disk [v] p where
  holds := by
    rw [List.flatMap_singleton, mem_retained_iff]
    cases hw : v.workspace? with
    | none => simp [disk_outcome_of_none hw]
    | some w =>
      have hname := hfree w hw
      have hleaves : ∀ d f, v.started? host = some (d, f) →
          (f.disk.HoldsWorkspace p ↔ d.HoldsWorkspace p) := fun d f hstarted =>
        not_not.mp fun hne => halters ⟨d, f, hstarted, hne⟩
      obtain ⟨cmd, ht, rfl, hstarted, hdisk⟩ := exists_evaluation host hw
      rw [hstarted] at hleaves
      rw [hdisk, EngineCommand.holdsWorkspace_evaluate ht hname hleaves]
      simp [Workspace.create]
  own := by
    rw [List.flatMap_singleton]
    exact v.count_retained_le p
  new u hu w hw hroot := by
    obtain rfl := List.mem_singleton.mp hu
    exact hroot ▸ hfree w hw

/-! ### Visits of a run -/

/-- Rule engines are asked in order, each in the session that the one before has left, until one
fails: these are the visits, and this is the session after them. -/
inductive Visits (host : Host) (input : Path) (c : PolicyContext) :
    Nat → List RuleEngine → Session → List Visit → Session → Prop
  | done {index : Nat} {s : Session} : Visits host input c index [] s [] s
  | failed {index : Nat} {e : RuleEngine} {es : List RuleEngine} {s last : Session}
      {err : CollaboratorError} :
      Visit.outcome host ⟨index, e, input, c, s⟩ = (.error err, last) →
      Visits host input c index (e :: es) s [⟨index, e, input, c, s⟩] last
  | answered {index : Nat} {e : RuleEngine} {es : List RuleEngine} {s next last : Session}
      {groups : List CheckGroup} {visits : List Visit} :
      Visit.outcome host ⟨index, e, input, c, s⟩ = (.ok groups, next) →
      Visits host input c (index + 1) es next visits last →
      Visits host input c index (e :: es) s (⟨index, e, input, c, s⟩ :: visits) last

/-- Asking evaluators is visiting their engines. -/
theorem evaluateAll_visits (host : Host) (input : Path) (c : PolicyContext) : ∀ (index : Nat)
    (engines : List RuleEngine) (s : Session), ∃ visits, Visits host input c index engines s visits
      (Pipeline.evaluateAll input c index (engines.map (RuleEngine.evaluator host)) s).2
  | _, [], _ => ⟨[], .done⟩
  | index, e :: es, s => by
    rcases hreply : s.evaluate index (e.evaluator host) input c with ⟨err | groups, next⟩
    · simp only [List.map_cons, Pipeline.evaluateAll, hreply]
      exact ⟨_, .failed hreply⟩
    · obtain ⟨visits, hvisits⟩ := evaluateAll_visits host input c (index + 1) es next
      simp only [List.map_cons, Pipeline.evaluateAll, hreply]
      rcases hrest : Pipeline.evaluateAll input c (index + 1)
        (es.map (RuleEngine.evaluator host)) next with ⟨err | more, last⟩ <;>
      · rw [hrest] at hvisits
        exact ⟨_, .answered hreply hvisits⟩

namespace Visits

variable {host : Host} {input : Path} {c : PolicyContext} {index : Nat} {engines : List RuleEngine}
  {s last : Session} {visits : List Visit}

/-- **Visits leave what they retain**, where none of their programs alters anything. -/
theorem standing (h : Visits host input c index engines s visits last) (hnamed : Named visits)
    {p : Path} (halters : ∀ v ∈ visits, ¬v.Alters host p) :
    Standing s.disk last.disk visits p := by
  induction h with
  | done => exact .of_gains (.refl _)
  | @failed index e es s last err houtcome =>
    have hfirst := Visit.standing (hnamed _ List.mem_cons_self) (halters _ List.mem_cons_self)
    rw [houtcome] at hfirst
    exact hfirst
  | @answered index e es s next last groups visits houtcome _ ih =>
    obtain ⟨hfree, hnamed⟩ := List.forall_mem_cons.mp hnamed
    obtain ⟨halter, halters⟩ := List.forall_mem_cons.mp halters
    have hfirst := Visit.standing hfree halter
    rw [houtcome] at hfirst
    exact hfirst.append (ih hnamed halters)

/-- The workspaces of visits have names that were free, if the numbers to be given are free at first
and the programs leave them so. -/
theorem named (h : Visits host input c index engines s visits last) (hfresh : s.disk.Fresh)
    (hleaves : ∀ v ∈ visits, v.LeavesNumbers host) : Named visits := by
  induction h with
  | done => exact List.forall_mem_nil _
  | failed _ => exact List.forall_mem_singleton.mpr fun w hw => Visit.free_of_fresh hw hfresh
  | @answered index e es s next last groups visits houtcome _ ih =>
    obtain ⟨hleave, hleaves⟩ := List.forall_mem_cons.mp hleaves
    have hnext := Visit.fresh_outcome hleave hfresh
    rw [houtcome] at hnext
    exact List.forall_mem_cons.mpr
      ⟨fun w hw => Visit.free_of_fresh hw hfresh, ih hnext hleaves⟩

end Visits

/-! ### The course of a run -/

/-- From one session to another no rule engine is asked, and the disk stays as it is. -/
structure Session.Undisturbed (s last : Session) : Prop where
  disk : last.disk = s.disk
  calls : ∃ asked, last.calls = s.calls ++ asked ∧ ∀ call ∈ asked, call.input? = none

namespace Session.Undisturbed

variable {s next last : Session} {call : Call}

theorem refl (s : Session) : s.Undisturbed s :=
  ⟨rfl, [], (List.append_nil _).symm, List.forall_mem_nil _⟩

theorem trans (h : s.Undisturbed next) (h' : next.Undisturbed last) : s.Undisturbed last := by
  obtain ⟨asked, hcalls, hasked⟩ := h.calls
  obtain ⟨more, hcalls', hmore⟩ := h'.calls
  refine ⟨h'.disk.trans h.disk, asked ++ more, ?_, List.forall_mem_append.mpr ⟨hasked, hmore⟩⟩
  rw [hcalls', hcalls, List.append_assoc]

theorem note (s : Session) (h : call.input? = none) : s.Undisturbed (s.note call) :=
  ⟨rfl, [call], rfl, List.forall_mem_singleton.mpr h⟩

theorem ask {α : Type} (s : Session) (question : Ask α) (h : call.input? = none) :
    s.Undisturbed (s.ask call question).2 :=
  ⟨rfl, [call], rfl, List.forall_mem_singleton.mpr h⟩

end Session.Undisturbed

/-- A part of a run disturbs nothing, or it comes to the policy. -/
def Reaches (s : Session) (policy : Report → Verdict × Session) (out : Verdict × Session) : Prop :=
  s.Undisturbed out.2 ∨ ∃ report, out = policy report

theorem Reaches.after {s next : Session} {policy : Report → Verdict × Session}
    {out : Verdict × Session} (h : Reaches next policy out) (hnext : s.Undisturbed next) :
    Reaches s policy out :=
  h.imp_left hnext.trans

namespace Pipeline

variable {p : Pipeline} {image : ImageReference} {c : PolicyContext} {s : Session}
  {policy : Report → Verdict × Session}

theorem verifyAttestations_reaches (report : Report) (signatures : Reply (List Signature))
    {heard : Reply (List Attestation) × Session} (hh : p.askAttestations image c s = heard)
    {counted : List Attestation}
    (hc : counting (image.digestHex.getD "") (heard.1.toOption.getD []) = counted) :
    Reaches s (fun report => p.evaluatePolicy report (c.attested counted) counted heard.2)
      (p.verifyAttestations report image c signatures s) := by
  have hasked : s.Undisturbed heard.2 := hh ▸ .ask s _ rfl
  unfold verifyAttestations
  rw [← askAttestations, hh]
  rcases heard with ⟨err | as, next⟩
  · cases err <;> exact .inl hasked
  · replace hc : counting (image.digestHex.getD "") as = counted := hc
    simp only [judge, matching_valid, hc]
    split
    · exact .inl hasked
    · exact .inr ⟨_, rfl⟩

theorem verifySignatures_reaches (report : Report) {heard : Reply (List Signature) × Session}
    (hh : p.askSignatures image c s = heard)
    (hrest : ∀ report,
      Reaches heard.2 policy (p.verifyAttestations report image c heard.1 heard.2)) :
    Reaches s policy (p.verifySignatures report image c s) := by
  have hasked : s.Undisturbed heard.2 := hh ▸ .ask s _ rfl
  unfold verifySignatures
  rw [← askSignatures, hh]
  rcases heard with ⟨(_ | _ | _) | signatures, next⟩
  · exact (hrest _).after hasked
  · exact .inl hasked
  · exact (hrest _).after hasked
  · exact (hrest _).after hasked

theorem resolveDigest_reaches (report : Report) {heard : Reply String × Session}
    (hh : p.askDigest image s = heard)
    (hrest : ∀ report, Reaches heard.2 policy
      (p.verifySignatures report (image.pinned (heard.1.toOption.getD "")) c heard.2)) :
    Reaches s policy (p.resolveDigest report image c s) := by
  have hasked : s.Undisturbed heard.2 := hh ▸ .ask s _ rfl
  unfold resolveDigest
  rw [← askDigest, hh]
  rcases heard with ⟨err | digest, next⟩
  · exact .inl hasked
  · simp only
    cases hresolve : image.resolve digest with
    | error fault => exact .inl hasked
    | ok resolved =>
      obtain ⟨-, rfl⟩ := ImageReference.resolve_eq_ok_iff.mp hresolve
      exact (hrest _).after hasked

theorem probe_reaches (url : String) {heard : Reply Unit × Session}
    (hh : p.askProbe image s = heard)
    (hrest : ∀ report, Reaches heard.2 policy (p.resolveDigest report image c heard.2)) :
    Reaches s policy (p.probe url image c s) := by
  have hasked : s.Undisturbed heard.2 := hh ▸ .ask s _ rfl
  unfold probe
  rw [← askProbe, hh]
  rcases heard with ⟨err | ⟨⟩, next⟩
  · cases err <;> exact .inl hasked
  · exact (hrest _).after hasked

/-- A run about an image disturbs nothing unless it comes to the policy; then the verifier has been
asked all its questions. -/
theorem run_reaches {url : String} (h : ImageReference.parse url = .ok image) :
    Reaches s
      (fun report => p.evaluatePolicy report ((p.replies image c s).governed c)
        (p.replies image c s).counted (p.verified image c s))
      (p.run url c s) := by
  unfold run
  rw [h]
  exact probe_reaches url rfl fun _ => resolveDigest_reaches _ rfl fun _ =>
    verifySignatures_reaches _ rfl fun _ => verifyAttestations_reaches _ _ rfl rfl

end Pipeline

/-- What a run does on the disk, from a session to the one at its end. Either nothing is staged and
no rule engine is asked. Or, when the verifier has been asked all its questions, the input is
staged, the rule engines are visited, and then the input is released. -/
inductive Course (p : Pipeline) (host : Host) (engines : List RuleEngine) (url : String)
    (c : PolicyContext) (s : Session) : List Visit → Option StagedInput → Session → Prop
  | unstaged {last : Session} : s.Undisturbed last → Course p host engines url c s [] none last
  | staged {image : ImageReference} {as : List Attestation} {staged : StagedInput} {disk : Disk}
      {visits : List Visit} {after : Session} :
      ImageReference.parse url = .ok image → (p.replies image c s).counted = as →
      p.writer as s.disk = .ok (staged, disk) →
      Visits host staged.path ((p.replies image c s).governed c) 0 engines
        { (p.verified image c s).note (.writeInput as.length) with disk } visits after →
      Course p host engines url c s visits (some staged)
        { after with disk := staged.release after.disk }

/-- **Every run takes such a course**, however it ends. -/
theorem Pipeline.run_course (p : Pipeline) {host : Host} {engines : List RuleEngine}
    (hengines : p.evaluators = engines.map (RuleEngine.evaluator host)) (url : String)
    (c : PolicyContext) (s : Session) :
    ∃ visits staged?, Course p host engines url c s visits staged? (p.run url c s).2 := by
  cases hparse : ImageReference.parse url with
  | error fault =>
    refine ⟨[], none, .unstaged ?_⟩
    rw [run_of_malformed hparse]
    exact .refl s
  | ok image =>
    rcases run_reaches (p := p) (c := c) (s := s) hparse with hends | ⟨report, hpolicy⟩
    · exact ⟨[], none, .unstaged hends⟩
    · have hdisk : (p.verified image c s).disk = s.disk := rfl
      have hverified : s.Undisturbed (p.verified image c s) :=
        (((Session.Undisturbed.ask _ _ rfl).trans (.ask _ _ rfl)).trans (.ask _ _ rfl)).trans
          (.ask _ _ rfl)
      rw [hpolicy]
      unfold evaluatePolicy
      simp only [Session.note, hdisk, hengines]
      cases hwrite : p.writer (p.replies image c s).counted s.disk with
      | error err => exact ⟨[], none, .unstaged (hverified.trans (.note _ rfl))⟩
      | ok input =>
        obtain ⟨visits, hvisits⟩ := evaluateAll_visits host input.1.path
          ((p.replies image c s).governed c) 0 engines
          { (p.verified image c s).note (.writeInput (p.replies image c s).counted.length) with
            disk := input.2 }
        exact ⟨visits, some input.1, .staged hparse rfl hwrite hvisits⟩

/-! ### What is left -/

/-- What a run leaves on the disk that it found, going by the visits of its rule engines and by the
input that it staged. Nothing is left of the input and its directory. Of the workspaces that no
program of the run has made or removed, those stand that were there, and one for each visit that
retains it, if workspaces get names that are free. Of a workspace that is not retained nothing is
left when the visit is over, and a visit with a cancelled token changes nothing. -/
structure Leftovers (host : Host) (d d' : Disk) (visits : List Visit)
    (staged? : Option StagedInput) : Prop where
  input : ∀ staged ∈ staged?, ∀ p, Disk.within staged.directory p = true → d'.node? p = none
  workspaces : Named visits → ∀ p, (∀ v ∈ visits, ¬v.Alters host p) → Standing d d' visits p
  removed : ∀ v ∈ visits, ∀ w ∈ v.workspace?, w.retain = false → ∀ p,
    Disk.within w.root p = true → (v.outcome host).2.disk.node? p = none
  cancelled : ∀ v ∈ visits, v.session.token.cancelled = true →
    (v.outcome host).2.disk = v.session.disk

namespace Course

variable {p : Pipeline} {host : Host} {engines : List RuleEngine} {url : String} {c : PolicyContext}
  {s last : Session} {visits : List Visit} {staged? : Option StagedInput}

theorem standing (h : Course p host engines url c s visits staged? last)
    (hwriter : p.writer.StagesJson) (hnamed : Named visits) {q : Path}
    (halters : ∀ v ∈ visits, ¬v.Alters host q) : Standing s.disk last.disk visits q := by
  cases h with
  | unstaged hquiet =>
    rw [hquiet.disk]
    exact .of_gains (.refl _)
  | @staged image as staged disk _ after _ _ hwrite hvisits =>
    obtain ⟨rfl, rfl⟩ := hwriter.staged_eq hwrite
    have hstaged := Standing.of_gains (p := q) (StagedInput.gains_stage as s.disk)
    have hvisited := hstaged.append (hvisits.standing hnamed halters)
    have hreleased := Standing.of_gains (p := q) (StagedInput.gains_release as s.disk after.disk)
    simpa using hvisited.append hreleased

/-- The workspaces of a run have names that were free, if the numbers to be given are free at first
and the programs leave them so. -/
theorem named (h : Course p host engines url c s visits staged? last)
    (hwriter : p.writer.StagesJson) (hfresh : s.disk.Fresh)
    (hleaves : ∀ v ∈ visits, v.LeavesNumbers host) : Named visits := by
  cases h with
  | unstaged _ => exact List.forall_mem_nil _
  | @staged image as staged disk _ after _ _ hwrite hvisits =>
    obtain ⟨-, rfl⟩ := hwriter.staged_eq hwrite
    exact hvisits.named ((StagedInput.gains_stage as s.disk).fresh hfresh) hleaves

/-- Released input is gone. -/
theorem input_gone (h : Course p host engines url c s visits staged? last)
    (hwriter : p.writer.StagesJson) : ∀ staged ∈ staged?, ∀ q,
    Disk.within staged.directory q = true → last.disk.node? q = none := by
  cases h with
  | unstaged _ => nofun
  | @staged image as staged disk _ after _ _ hwrite _ =>
    rintro _ ⟨⟩ q hq
    obtain ⟨rfl, -⟩ := hwriter.staged_eq hwrite
    exact StagedInput.node?_release_stage as s.disk after.disk hq

theorem leftovers (h : Course p host engines url c s visits staged? last)
    (hwriter : p.writer.StagesJson) : Leftovers host s.disk last.disk visits staged? where
  input := h.input_gone hwriter
  workspaces hnamed _ halters := h.standing hwriter hnamed halters
  removed _ _ _ hw hretain _ hp := Visit.node?_outcome hw hretain hp
  cancelled _ _ ht := Visit.disk_outcome_cancelled ht

end Course

namespace Pipeline

/-- **Nothing outlives a run but the workspaces that it was asked to retain.** However the run ends,
it takes its course, and only such workspaces are left over, apart from those that a program of the
run has itself removed or made. -/
theorem validate_leftovers (p : Pipeline) {host : Host} {engines : List RuleEngine}
    (hengines : p.evaluators = engines.map (RuleEngine.evaluator host))
    (hwriter : p.writer.StagesJson) (url : String) (c : PolicyContext) (s : Session) :
    ∃ visits staged? after, Course p host engines url c s visits staged? after ∧
      (p.validate url c s).2 = after.releaseAll engines.length ∧
      Leftovers host s.disk (p.validate url c s).2.disk visits staged? := by
  obtain ⟨visits, staged?, hcourse⟩ := p.run_course hengines url c s
  have hlast : (p.validate url c s).2 = (p.run url c s).2.releaseAll engines.length := by
    rw [validate, hengines, List.length_map]
  exact ⟨visits, staged?, _, hcourse, hlast, hcourse.leftovers hwriter⟩

/-- A host whose only program is a shell, which prints an empty list and leaves the disk alone. -/
def shellOnly : Host := fun i d =>
  if i.program = "sh" ∧ i.arguments.take 2 = ["-c", "echo []"] then
    some { status := .code 0, output := [91, 93, 10], errors := [], duration := 0, disk := d }
  else none

theorem leavesNumbers_shellOnly (v : Visit) : v.LeavesNumbers shellOnly := by
  rcases v with ⟨index, replies | cmd, input, c, s⟩
  · rintro d f ⟨⟩
  · intro d f hstarted hfresh
    obtain ⟨w, hf⟩ := EngineCommand.exists_invocation hstarted
    unfold shellOnly at hf
    split at hf
    · obtain rfl := Option.some.inj hf
      exact hfresh
    · cases hf

/-- A script, a command that does not retain its workspace, one that does, and one that cannot be
started but is to retain it as well: of three workspaces the last two are left. -/
theorem validate_leftovers_mixed :
    let hex := String.ofList (List.replicate 64 'a')
    let about : Attestation := {
      statement := .object [
        ("_type", .text "https://in-toto.io/Statement/v1"), ("predicate", .object []),
        ("predicateType", .text "https://slsa.dev/provenance/v1"),
        ("subject", .list [.object [("digest", .object [("sha256", .text hex)])]])] }
    let shell : EngineCommand := { program := "sh", arguments := ["-c", "echo []"] }
    let engines : List RuleEngine := [.script fun _ t => (.ok [], t), .command shell,
      .command { shell with retain := true }, .command { program := "opa", retain := true }]
    let p : Pipeline := {
      verifier := (replying ("sha256:" ++ hex) (.ok []) (.ok [about]) []).verifier
      evaluators := engines.map (RuleEngine.evaluator shellOnly)
      writer := jsonWriter }
    let c : PolicyContext := ⟨"key", none, [], [], [], [], [], .now ⟨0, 0⟩⟩
    let s := Session.initial Disk.blank
    let last := (p.validate "localhost/app:1" c s).2
    (∃ visits staged? after, Course p shellOnly engines "localhost/app:1" c s visits staged? after ∧
      last = after.releaseAll engines.length ∧ Named visits ∧
      Leftovers shellOnly s.disk last.disk visits staged?) ∧
      (List.range 4).map (fun n => last.disk.isDirectory (Disk.workspacePath n)) =
        [false, false, true, true] := by
  intro hex about shell engines p c s last
  obtain ⟨visits, staged?, after, hcourse, hlast, hleft⟩ :=
    p.validate_leftovers rfl jsonWriter_stagesJson "localhost/app:1" c s
  have hnamed : Named visits :=
    hcourse.named jsonWriter_stagesJson Disk.fresh_blank fun v _ => leavesNumbers_shellOnly v
  exact ⟨⟨visits, staged?, after, hcourse, hlast, hnamed, hleft⟩, by decide +kernel⟩

/-- A host where the program `mover`, unless it is given the first workspace itself, removes that
one and makes a directory by the name of the second. All programs print an empty list. -/
def moving : Host := fun i d => some {
  status := .code 0
  output := [91, 93, 10]
  errors := []
  duration := 0
  disk :=
    if i.program = "mover" ∧
      i.environment.lookup workspaceVariable ≠ some (Path.text (Disk.workspacePath 1)) then
      (d.removeTree (Disk.workspacePath 1)).put (Disk.workspacePath 2) .directory
    else d }

/-- Three commands are asked once each, and nothing is cancelled. The first and the third are to
retain their workspaces, the second is not. No program removes the workspace that it is given. But
the third one's removes the first workspace, and makes one by the name of the second: what is left
are the second and the third. -/
theorem workspaces_moved :
    let hex := String.ofList (List.replicate 64 'a')
    let about : Attestation := {
      statement := .object [
        ("_type", .text "https://in-toto.io/Statement/v1"), ("predicate", .object []),
        ("predicateType", .text "https://slsa.dev/provenance/v1"),
        ("subject", .list [.object [("digest", .object [("sha256", .text hex)])]])] }
    let commands : List EngineCommand := [{ program := "quiet", retain := true },
      { program := "quiet" }, { program := "mover", retain := true }]
    let p : Pipeline := {
      verifier := (replying ("sha256:" ++ hex) (.ok []) (.ok [about]) []).verifier
      evaluators := commands.map (EngineCommand.evaluator moving)
      writer := jsonWriter }
    let c : PolicyContext := ⟨"key", none, [], [], [], [], [], .now ⟨0, 0⟩⟩
    let last := (p.validate "localhost/app:1" c (Session.initial Disk.blank)).2
    (∀ (cmd : EngineCommand) (w : Workspace) (inputs : List Path) (d : Disk) (f : Finished),
      moving (cmd.invocation w inputs) d = some f → d.HoldsWorkspace w.root →
        f.disk.HoldsWorkspace w.root) ∧
    (List.range 3).map (fun i => timesAsked i last.calls) = [1, 1, 1] ∧
    last.token.cancelled = false ∧
    (List.range 4).map (fun n => last.disk.isDirectory (Disk.workspacePath n)) =
      [false, false, true, true] := by
  intro hex about commands p c last
  refine ⟨fun cmd w inputs d f hf hroot => ?_, by decide +kernel, by decide +kernel,
    by decide +kernel⟩
  obtain rfl := Option.some.inj hf
  simp only
  split
  · rename_i hmoves
    have hother : w.root ≠ Disk.workspacePath 1 := by
      intro heq
      refine hmoves.2 ?_
      rw [← heq]
      rfl
    rw [Disk.holdsWorkspace_put_directory, Disk.holdsWorkspace_removeTree]
    exact .inl ⟨hroot, hother⟩
  · exact hroot

end Pipeline
end ImagePolicy
