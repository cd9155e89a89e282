/-
# The life of a workspace

A workspace lives together with the context that is judged in it: the configuration is written, the
workspace is released, and attestations name a time to the context, in any order and any number of
times (`Workspace.Step`). Two things go on at once. The directory stands until it is released, and
for good if it is to be retained; once it is gone it stays gone, for a write does not bring it back.
The time of the context is fixed once. They meet in the configuration that was written last, which
has the time that was fixed when it was written.

Each step keeps a workspace standing, except for the release of one that is not to be retained
(`Workspace.Scene.Stands`), and no step changes the disk where one is gone (`Workspace.Scene.Gone`).
A run is followed through by these two, and taken apart where the workspace was first released and
where the configuration was last written.

Key definitions: `Workspace.Step`, `Workspace.Scene`, `Workspace.Scene.run`,
`PolicyContext.fixedAt`, `Workspace.Lived`.
Key theorems: `Workspace.Scene.Stands.run`, `Workspace.Scene.Gone.run`,
`Workspace.Scene.context_run`, `Workspace.lived`.
-/
import ImagePolicy.Proofs.Policy.RuleDocument
import ImagePolicy.Proofs.Scratch.RuleFiles
import ImagePolicy.Proofs.Scratch.Workspaces

namespace ImagePolicy

open Json (Value)
open Disk (within)

/-! ### The time that is fixed -/

namespace PolicyContext

/-- The instant of a context after attestations have named these times: a time that stands in for
now gives way to the first of them. -/
def fixedAt (c : PolicyContext) (named : List Instant) : Instant :=
  match c.effectiveTime, named with
  | .now _, i :: _ => i
  | time, _ => time.instant

theorem instant_foldl (c : PolicyContext) (named : List Instant) :
    (named.foldl setAttestationTime c).instant = c.fixedAt named := by
  rw [foldl_setAttestationTime]
  show (named.foldl EffectiveTime.attest c.effectiveTime).instant = c.fixedAt named
  cases named with
  | nil =>
    unfold fixedAt
    cases c.effectiveTime <;> rfl
  | cons i named =>
    rw [EffectiveTime.foldl_attest]
    unfold fixedAt
    cases c.effectiveTime <;> rfl

/-- Times that are named change nothing that rules read, but the number for the time. -/
theorem rulesAt_foldl (c : PolicyContext) (named : List Instant) (i : Instant) :
    (named.foldl setAttestationTime c).rulesAt i = c.rulesAt i := by
  rw [foldl_setAttestationTime]
  rfl

end PolicyContext

namespace Workspace

/-- After its release a workspace is not held; if it was held, and is not to be retained, it is
removed. -/
theorem release_eq (w : Workspace) (d : Disk) : w.release d =
    ({ w with held := false },
      if w.held = true ∧ w.retain = false then d.removeTree w.root else d) := by
  obtain ⟨root, retain, held⟩ := w
  cases held <;> cases retain <;> rfl

/-! ### Steps -/

/-- What can happen to a workspace and to the context that is judged in it. -/
inductive Step where
  | writeConfig
  | release
  | name (instant : Instant)

/-- The times that are named, in their order. -/
def named (steps : List Step) : List Instant :=
  steps.filterMap fun
    | .name i => some i
    | _ => none

/-- A workspace, the context that is judged in it, and the disk. -/
structure Scene where
  workspace : Workspace
  context : PolicyContext
  disk : Disk

namespace Scene

/-- A workspace that was just made. -/
def made (c : PolicyContext) (retain : Bool) (d : Disk) : Scene :=
  ⟨(create retain d).1, c, (create retain d).2⟩

/-- The disk with the configuration, if it can be written. -/
def written? (s : Scene) : Option Disk :=
  s.workspace.writeConfig? s.context s.disk

/-- One step. A configuration that cannot be written leaves everything as it is. -/
def step (s : Scene) : Step → Scene
  | .writeConfig => { s with disk := s.written?.getD s.disk }
  | .release =>
    { s with workspace := (s.workspace.release s.disk).1, disk := (s.workspace.release s.disk).2 }
  | .name i => { s with context := s.context.setAttestationTime i }

/-- Steps, one after the other. -/
def run (s : Scene) (steps : List Step) : Scene :=
  steps.foldl step s

variable {s : Scene} {steps : List Step} {st : Step}

theorem run_append (s : Scene) (before after : List Step) :
    s.run (before ++ after) = (s.run before).run after :=
  List.foldl_append

@[simp]
theorem workspace_step_writeConfig (s : Scene) :
    (s.step .writeConfig).workspace = s.workspace := rfl

@[simp]
theorem workspace_step_name (s : Scene) (i : Instant) :
    (s.step (.name i)).workspace = s.workspace := rfl

@[simp]
theorem workspace_step_release (s : Scene) :
    (s.step .release).workspace = { s.workspace with held := false } :=
  congrArg Prod.fst (release_eq s.workspace s.disk)

@[simp]
theorem disk_step_release (s : Scene) : (s.step .release).disk =
    if s.workspace.held = true ∧ s.workspace.retain = false
    then s.disk.removeTree s.workspace.root else s.disk :=
  congrArg Prod.snd (release_eq s.workspace s.disk)

theorem root_step (s : Scene) (st : Step) : (s.step st).workspace.root = s.workspace.root := by
  cases st <;> simp

theorem retain_step (s : Scene) (st : Step) :
    (s.step st).workspace.retain = s.workspace.retain := by
  cases st <;> simp

/-- Where a workspace is, and whether it is to be retained, does not change. -/
theorem root_run (s : Scene) (steps : List Step) :
    (s.run steps).workspace.root = s.workspace.root := by
  induction steps generalizing s with
  | nil => rfl
  | cons st steps ih => exact (ih (s.step st)).trans (root_step s st)

theorem configFile_run (s : Scene) (steps : List Step) :
    (s.run steps).workspace.configFile = s.workspace.configFile := by
  rw [configFile, dataDirectory, root_run]
  rfl

theorem retain_run (s : Scene) (steps : List Step) :
    (s.run steps).workspace.retain = s.workspace.retain := by
  induction steps generalizing s with
  | nil => rfl
  | cons st steps ih => exact (ih (s.step st)).trans (retain_step s st)

/-- **Of a context only the time changes, and as the named times say.** -/
theorem context_run (s : Scene) (steps : List Step) :
    (s.run steps).context = (named steps).foldl PolicyContext.setAttestationTime s.context := by
  induction steps generalizing s with
  | nil => rfl
  | cons st steps ih =>
    have hrest := ih (s.step st)
    cases st <;> exact hrest

/-! ### A workspace that stands -/

/-- A workspace is there with its two directories, and where the configuration goes stands nothing
but a file. -/
structure Stands (s : Scene) : Prop where
  root : s.disk.isDirectory s.workspace.root = true
  policy : s.disk.isDirectory s.workspace.policyDirectory = true
  data : s.disk.isDirectory s.workspace.dataDirectory = true
  config : ∃ held : Option Bytes, s.disk.node? s.workspace.configFile = held.map .file

/-- The steps do not end what stands: the workspace is to be retained, or it is not released. -/
def Keeps (retain : Bool) (steps : List Step) : Prop :=
  retain = true ∨ .release ∉ steps

theorem Stands.written?_eq (h : s.Stands) :
    s.written? = some (s.disk.put s.workspace.configFile (.file (configBytes s.context))) := by
  have hdirectory : s.disk.isDirectory s.workspace.configFile.dropLast = true := by
    simpa [configFile] using h.data
  obtain ⟨held, hheld⟩ := h.config
  exact Disk.write?_eq_put (by simp [configFile]) hdirectory hheld

theorem Stands.disk_write (h : s.Stands) : (s.step .writeConfig).disk =
    s.disk.put s.workspace.configFile (.file (configBytes s.context)) := by
  show s.written?.getD s.disk = _
  rw [h.written?_eq, Option.getD_some]

/-- The configuration of a workspace that stands is written where it goes. -/
theorem Stands.node?_write (h : s.Stands) :
    (s.step .writeConfig).disk.node? s.workspace.configFile =
      some (.file (configBytes s.context)) := by
  rw [h.disk_write]
  exact Disk.node?_put_self (by simp [configFile])

/-- A step that is no write and keeps the workspace leaves the disk as it is. -/
theorem disk_step (hst : st ≠ .writeConfig) (hkeeps : Keeps s.workspace.retain [st]) :
    (s.step st).disk = s.disk := by
  cases st with
  | writeConfig => exact absurd rfl hst
  | name i => rfl
  | release =>
    have hretain : s.workspace.retain = true := hkeeps.resolve_right (by simp)
    simp [hretain]

theorem Keeps.of_append {retain : Bool} {before after : List Step}
    (h : Keeps retain (before ++ after)) : Keeps retain before ∧ Keeps retain after :=
  ⟨h.imp_right fun hnot hmem => hnot (List.mem_append_left after hmem),
    h.imp_right fun hnot hmem => hnot (List.mem_append_right before hmem)⟩

theorem Keeps.of_cons {retain : Bool} (h : Keeps retain (st :: steps)) :
    Keeps retain [st] ∧ Keeps retain steps := by
  have hsplit : Keeps retain ([st] ++ steps) := h
  exact hsplit.of_append

/-- **A step that keeps a workspace leaves it standing.** -/
theorem Stands.step (h : s.Stands) (hkeeps : Keeps s.workspace.retain [st]) :
    (s.step st).Stands := by
  by_cases hst : st = .writeConfig
  · -- a write changes the disk in one place, where no directory stands
    subst hst
    have hother : ∀ p, p ≠ s.workspace.configFile →
        (s.step .writeConfig).disk.isDirectory p = s.disk.isDirectory p := by
      intro p hp
      rw [h.disk_write, Disk.isDirectory, Disk.isDirectory, Disk.node?_put_ne hp]
    refine ⟨?_, ?_, ?_, ⟨some (configBytes s.context), h.node?_write⟩⟩
    · exact (hother _ (by simp [configFile, dataDirectory])).trans h.root
    · exact (hother _ (by simp [configFile, dataDirectory, policyDirectory])).trans h.policy
    · exact (hother s.workspace.dataDirectory (by simp [configFile])).trans h.data
  · have hdisk := disk_step hst hkeeps
    have hroot := root_step s st
    refine ⟨?_, ?_, ?_, ?_⟩
    · rw [hdisk, hroot]
      exact h.root
    · rw [hdisk, policyDirectory, hroot]
      exact h.policy
    · rw [hdisk, dataDirectory, hroot]
      exact h.data
    · rw [hdisk, configFile, dataDirectory, hroot]
      exact h.config

/-- **Steps that keep a workspace leave it standing.** -/
theorem Stands.run (h : s.Stands) (hkeeps : Keeps s.workspace.retain steps) :
    (s.run steps).Stands := by
  induction steps generalizing s with
  | nil => exact h
  | cons st steps ih =>
    obtain ⟨hfirst, hrest⟩ := hkeeps.of_cons
    exact ih (h.step hfirst) (by rwa [retain_step])

/-- Without writes, steps that keep a workspace leave the disk as it is. -/
theorem disk_run (hwrite : .writeConfig ∉ steps) (hkeeps : Keeps s.workspace.retain steps) :
    (s.run steps).disk = s.disk := by
  induction steps generalizing s with
  | nil => rfl
  | cons st steps ih =>
    obtain ⟨hfirst, hrest⟩ := hkeeps.of_cons
    rw [List.mem_cons, not_or] at hwrite
    have hstep : (s.step st).disk = s.disk := disk_step (Ne.symm hwrite.1) hfirst
    exact (ih hwrite.2 (by rwa [retain_step])).trans hstep

/-! ### A workspace that is gone -/

/-- A workspace was released, and nothing is left of it. -/
structure Gone (s : Scene) : Prop where
  released : s.workspace.held = false
  empty : ∀ p, within s.workspace.root p = true → s.disk.node? p = none

/-- The configuration of a workspace that is gone cannot be written. -/
theorem Gone.written?_eq (h : s.Gone) : s.written? = none := by
  have hconfig : s.disk.node? s.workspace.configFile = none :=
    h.empty _ (EngineCommand.within_configFile _)
  have hdata : s.disk.isDirectory s.workspace.configFile.dropLast = false := by
    have hnone : s.disk.node? s.workspace.dataDirectory = none :=
      h.empty _ (by simp [within, dataDirectory])
    simp [configFile, Disk.isDirectory, hnone]
  show s.disk.write? _ _ = none
  rw [Disk.write?, hconfig, hdata]
  simp

/-- A workspace that was released is not released again. -/
theorem step_release_of_released (h : s.workspace.held = false) : s.step .release = s := by
  have hworkspace : (s.step .release).workspace = s.workspace := by
    rw [workspace_step_release, ← h]
  have hdisk : (s.step .release).disk = s.disk := by simp [h]
  obtain ⟨w, c, d⟩ := s
  exact congrArg₂ (fun w d => (⟨w, c, d⟩ : Scene)) hworkspace hdisk

/-- A step leaves a workspace gone, and the disk as it is. -/
theorem Gone.step (h : s.Gone) (st : Step) : (s.step st).Gone ∧ (s.step st).disk = s.disk := by
  cases st with
  | writeConfig =>
    have hsame : s.step .writeConfig = s := by
      show ({ s with disk := s.written?.getD s.disk } : Scene) = s
      rw [h.written?_eq, Option.getD_none]
    rw [hsame]
    exact ⟨h, rfl⟩
  | name i => exact ⟨⟨h.released, h.empty⟩, rfl⟩
  | release =>
    rw [step_release_of_released h.released]
    exact ⟨h, rfl⟩

/-- **A workspace that is gone is gone for good**: no steps bring anything back. -/
theorem Gone.run (h : s.Gone) (steps : List Step) :
    (s.run steps).Gone ∧ (s.run steps).disk = s.disk := by
  induction steps generalizing s with
  | nil => exact ⟨h, rfl⟩
  | cons st steps ih =>
    obtain ⟨hgone, hdisk⟩ := h.step st
    obtain ⟨hrest, hsame⟩ := ih hgone
    exact ⟨hrest, hsame.trans hdisk⟩

/-- A workspace that is released is gone, if it is not to be retained. -/
theorem gone_release (hroot : s.workspace.root ≠ []) (hheld : s.workspace.held = true)
    (hretain : s.workspace.retain = false) : (s.step .release).Gone := by
  refine ⟨by simp, fun p hp => ?_⟩
  rw [root_step] at hp
  rw [disk_step_release, if_pos ⟨hheld, hretain⟩]
  exact Disk.node?_removeTree (Disk.ne_nil_of_within hroot hp) hp

/-- **Once it is released, a workspace is gone**, if it is not to be retained. -/
theorem gone_run (hroot : s.workspace.root ≠ []) (hheld : s.workspace.held = true)
    (hretain : s.workspace.retain = false) (hrelease : .release ∈ steps) :
    (s.run steps).Gone := by
  induction steps generalizing s with
  | nil => cases hrelease
  | cons st steps ih =>
    -- up to the first release the workspace is held, or it would not be removed then
    by_cases hst : st = .release
    · subst hst
      exact ((gone_release hroot hheld hretain).run steps).1
    · have hheld' : (s.step st).workspace.held = true := by
        cases st with
        | release => exact absurd rfl hst
        | _ => exact hheld
      have hlater : .release ∈ steps := List.mem_of_ne_of_mem (Ne.symm hst) hrelease
      exact ih (by rwa [root_step]) hheld' (by rwa [retain_step]) hlater

/-- What was released once is not held again. -/
theorem released_run (h : s.workspace.held = false ∨ .release ∈ steps) :
    (s.run steps).workspace.held = false := by
  induction steps generalizing s with
  | nil => exact h.resolve_right (by simp)
  | cons st steps ih =>
    have hstep : (s.step st).workspace.held = false ∨ .release ∈ steps := by
      cases st with
      | release => exact .inl (by simp)
      | writeConfig => simpa using h
      | name i => simpa using h
    exact ih hstep

/-! ### The configuration that is found -/

/-- What is written last is found, where the workspace stands. -/
theorem Stands.node?_run (h : s.Stands) {before after : List Step}
    (hkeeps : Keeps s.workspace.retain (before ++ .writeConfig :: after))
    (hlast : .writeConfig ∉ after) :
    (s.run (before ++ .writeConfig :: after)).disk.node? s.workspace.configFile =
      some (.file (configBytes (s.run before).context)) := by
  obtain ⟨hbefore, hbehind⟩ := hkeeps.of_append
  have hafter : Keeps s.workspace.retain after := hbehind.of_cons.2
  have hwritten := (h.run hbefore).node?_write
  have hrest : (((s.run before).step .writeConfig).run after).disk =
      ((s.run before).step .writeConfig).disk :=
    disk_run hlast (by rwa [workspace_step_writeConfig, retain_run])
  rw [run_append]
  show (((s.run before).step .writeConfig).run after).disk.node? _ = _
  rw [hrest, ← configFile_run s before, hwritten]

end Scene

/-- A step that was taken was taken a last time. -/
theorem exists_last {steps : List Step} {st : Step} (h : st ∈ steps) :
    ∃ before after, steps = before ++ st :: after ∧ st ∉ after := by
  obtain ⟨after, before, hsplit, hlast⟩ :=
    List.eq_append_cons_of_mem (List.mem_reverse.mpr h)
  refine ⟨before.reverse, after.reverse, ?_, by simpa using hlast⟩
  have hsteps := congrArg List.reverse hsplit
  simpa using hsteps

/-! ### From the start -/

open Scene

variable {d : Disk} {c : PolicyContext} {retain : Bool} {steps : List Step}

/-- A workspace that was just made stands, and nothing is written in it. -/
theorem stands_made (hunused : d.Unused (d.nextScratch "custos-")) (c : PolicyContext)
    (retain : Bool) : (made c retain d).Stands ∧
      (made c retain d).disk.node? (made c retain d).workspace.configFile = none := by
  have hstaging := EngineCommand.staging_create hunused retain
  have hholds : (create retain d).2.HoldsWorkspace (create retain d).1.root :=
    ((EngineCommand.gains_create retain d).holds _).mpr (.inr (List.mem_singleton_self _))
  exact ⟨⟨hholds.1, hstaging.policy, hstaging.data, none, hstaging.unconfigured⟩,
    hstaging.unconfigured⟩

theorem stands_run_made (hunused : d.Unused (d.nextScratch "custos-"))
    (hkeeps : Keeps retain steps) : ((made c retain d).run steps).Stands :=
  (stands_made hunused c retain).1.run hkeeps

theorem gone_run_made (hends : ¬Keeps retain steps) : ((made c retain d).run steps).Gone := by
  obtain ⟨hnot, hreleased⟩ := not_or.mp hends
  have hroot : (made c retain d).workspace.root ≠ [] := by
    simp [made, create, Disk.makeScratch, Disk.nextScratch]
  exact gone_run hroot rfl (Bool.eq_false_iff.mpr hnot) (not_not.mp hreleased)

/-- Where there is a configuration, the workspace was not ended, and one was written. -/
theorem written_of_node? (hunused : d.Unused (d.nextScratch "custos-")) {n : Node}
    (hn : ((made c retain d).run steps).disk.node? (made c retain d).workspace.configFile =
      some n) :
    Keeps retain steps ∧ .writeConfig ∈ steps := by
  have hkeeps : Keeps retain steps := by
    by_contra hends
    have hnone := (gone_run_made (c := c) (d := d) hends).empty _
      (EngineCommand.within_configFile _)
    rw [configFile_run, hn] at hnone
    cases hnone
  refine ⟨hkeeps, ?_⟩
  by_contra hnot
  have hdisk : ((made c retain d).run steps).disk = (made c retain d).disk := disk_run hnot hkeeps
  rw [hdisk, (stands_made hunused c retain).2] at hn
  cases hn

/-- What the configuration says that is written after some steps. -/
theorem documentValue?_run (c : PolicyContext) (retain : Bool) (d : Disk) (steps : List Step) :
    documentValue? Json.maxNesting (configBytes ((made c retain d).run steps).context) =
      some (.object [("config", .object
        [("policy", .object (c.rulesAt (c.fixedAt (named steps))))])]) := by
  have hcontext : ((made c retain d).run steps).context =
      (named steps).foldl PolicyContext.setAttestationTime c := context_run _ steps
  rw [PolicyContext.documentValue?_configBytes, hcontext, PolicyContext.rulesAt_foldl,
    PolicyContext.instant_foldl]

/-- When it is dropped a workspace is there just if it is to be retained, whatever was before. -/
theorem isDirectory_dropped (hunused : d.Unused (d.nextScratch "custos-")) (c : PolicyContext)
    (retain : Bool) (steps : List Step) :
    (((made c retain d).run steps).step .release).disk.isDirectory
      ((made c retain d).run steps).workspace.root = true ↔ retain = true := by
  have hdropped : ((made c retain d).run steps).step .release =
      (made c retain d).run (steps ++ [.release]) := by
    rw [run_append]
    rfl
  have hroot : ((made c retain d).run steps).workspace.root =
      ((made c retain d).run (steps ++ [.release])).workspace.root := by
    rw [root_run, root_run]
  rw [hdropped, hroot]
  by_cases hretain : retain = true
  · exact iff_of_true (stands_run_made hunused (.inl hretain)).root hretain
  · have hends : ¬Keeps retain (steps ++ [.release]) :=
      not_or.mpr ⟨hretain, not_not.mpr (by simp)⟩
    have hnone := (gone_run_made (c := c) (d := d) hends).empty _
      (List.isPrefixOf_iff_prefix.mpr (List.prefix_refl _))
    refine iff_of_false ?_ hretain
    rw [Disk.isDirectory, hnone]
    simp

/-- What holds of a workspace after some steps from when it was made. -/
structure Lived (c : PolicyContext) (retain : Bool) (d : Disk) (steps : List Step) (s : Scene) :
    Prop where
  root : s.workspace.root = d.nextScratch "custos-"
  /-- Until it is released, and for good if it is to be retained, it stands, and its configuration
  can be written. -/
  stands : Keeps retain steps → s.Stands ∧ s.written?.isSome = true
  /-- Otherwise it is gone: nothing is left of it, to write its configuration fails, and whatever is
  done further changes nothing on the disk. -/
  gone : ¬Keeps retain steps →
    s.Gone ∧ s.written? = none ∧ ∀ more, (s.run more).disk = s.disk
  /-- To release it again changes nothing. -/
  released : .release ∈ steps → s.step .release = s
  /-- It has a configuration once one was written. -/
  configured : Keeps retain steps → .writeConfig ∈ steps →
    (s.disk.node? s.workspace.configFile).isSome = true
  /-- The configuration that it has is the one that was written last, and says the lists of the
  context and the time that was fixed before. -/
  config : ∀ n, s.disk.node? s.workspace.configFile = some n →
    ∃ before after, steps = before ++ .writeConfig :: after ∧ .writeConfig ∉ after ∧
      ((made c retain d).run before).written?.isSome = true ∧
      ∃ content, n = .file content ∧
        content = configBytes ((made c retain d).run before).context ∧
        documentValue? Json.maxNesting content = some (.object [("config", .object
          [("policy", .object (c.rulesAt (c.fixedAt (named before))))])])
  /-- When it is dropped, and so released, it is there just if it is to be retained. -/
  dropped : (s.step .release).disk.isDirectory s.workspace.root = true ↔ retain = true

/-- **The life of a workspace**, through any steps. -/
theorem lived (hunused : d.Unused (d.nextScratch "custos-")) (c : PolicyContext) (retain : Bool)
    (steps : List Step) : Lived c retain d steps ((made c retain d).run steps) where
  root := root_run _ steps
  stands := by
    intro hkeeps
    have hstands := stands_run_made (c := c) hunused hkeeps
    exact ⟨hstands, by rw [hstands.written?_eq]; rfl⟩
  gone := by
    intro hends
    have hgone := gone_run_made (c := c) (d := d) hends
    exact ⟨hgone, hgone.written?_eq, fun more => (hgone.run more).2⟩
  released := fun hreleased => step_release_of_released (released_run (.inr hreleased))
  configured := by
    intro hkeeps hwrite
    obtain ⟨before, after, rfl, hlast⟩ := exists_last hwrite
    rw [configFile_run, (stands_made hunused c retain).1.node?_run hkeeps hlast]
    rfl
  config := by
    intro n hn
    rw [configFile_run] at hn
    obtain ⟨hkeeps, hwrite⟩ := written_of_node? hunused hn
    obtain ⟨before, after, rfl, hlast⟩ := exists_last hwrite
    rw [(stands_made hunused c retain).1.node?_run hkeeps hlast] at hn
    have hsuccess : ((made c retain d).run before).written?.isSome = true := by
      rw [(stands_run_made hunused hkeeps.of_append.1).written?_eq]
      rfl
    exact ⟨before, after, rfl, hlast, hsuccess, _, (Option.some.inj hn).symm, rfl,
      documentValue?_run c retain d before⟩
  dropped := isDirectory_dropped hunused c retain steps

/-- A workspace that is to be retained, on a disk with nothing but the usual directories: of two
configurations the second is found, and of the times that are named it has the first. -/
theorem lived_retained :
    let c : PolicyContext := ⟨"key", none, ["a"], [], [], [], [], .now ⟨5, 0⟩⟩
    let steps : List Step := [.writeConfig, .name ⟨7, 1⟩, .name ⟨9, 0⟩, .writeConfig, .name ⟨3, 0⟩,
      .release, .release]
    let s := (made c true Disk.blank).run steps
    Disk.blank.Unused (Disk.blank.nextScratch "custos-") ∧ Lived c true Disk.blank steps s ∧
      ∃ content, s.disk.node? s.workspace.configFile = some (.file content) ∧
        documentValue? Json.maxNesting content = some (.object [("config", .object [("policy",
          .object [("include", .list [.text "a"]), ("when_ns", .ofInt 7000000001)])])]) := by
  intro c steps s
  have hunused : Disk.blank.Unused (Disk.blank.nextScratch "custos-") :=
    Disk.unused_of_entries (by decide +kernel) (by decide +kernel)
  have hlived : Lived c true Disk.blank steps s := lived hunused c true steps
  let before : List Step := [.writeConfig, .name ⟨7, 1⟩, .name ⟨9, 0⟩]
  let after : List Step := [.name ⟨3, 0⟩, .release, .release]
  have hkeeps : Keeps true (before ++ .writeConfig :: after) := .inl rfl
  have hlast : .writeConfig ∉ after := by simp [after]
  have hfile := (stands_made hunused c true).1.node?_run hkeeps hlast
  have hrules : c.rulesAt (c.fixedAt (named before)) =
      [("include", .list [.text "a"]), ("when_ns", .ofInt 7000000001)] := by
    have hwhen : (⟨7, 1⟩ : Instant).nanoseconds? = some 7000000001 := by decide
    show RuleConfig.members ⟨[], [], ["a"], [], (⟨7, 1⟩ : Instant).nanoseconds?.getD _⟩ = _
    rw [hwhen]
    rfl
  have hread := documentValue?_run c true Disk.blank before
  rw [hrules] at hread
  refine ⟨hunused, hlived, _, ?_, hread⟩
  rw [configFile_run]
  exact hfile

end Workspace
end ImagePolicy
