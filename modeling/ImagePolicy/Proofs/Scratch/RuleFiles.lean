/-
# The rule files that an engine finds

A rule engine is started with a workspace into which its rule files were copied. All of them go into
one directory, each under the last name of its path, so a file takes the place of any that was
listed before it under the same name. What an engine finds under a name is the last file of that
name (`EngineCommand.fileContent?_of_starts`), and the content of a rule file is in the directory
just if some file with this content is the last of its name (`EngineCommand.complete_iff`).

While the workspace is filled, the disk outside of it stays as it was, so what is copied is what
the files held before (`EngineCommand.Staging`). This is the invariant of the loop over the files.

Key definitions: `Disk.fileAt?`, `Disk.Unused`, `lastNamed?`, `IsLast`, `EngineCommand.Starts`,
`EngineCommand.Staging`, `EngineCommand.Complete`, `EngineCommand.Finds`.
Key theorems: `lastNamed?_eq_some_iff`, `EngineCommand.Staging.copyRules`,
`EngineCommand.fileContent?_of_starts`, `EngineCommand.complete_iff`, `EngineCommand.rules_found`,
`EngineCommand.rule_overwritten`.
-/
import ImagePolicy.Proofs.Scratch.Disk
import ImagePolicy.Engine.Command
import Mathlib.Logic.Function.Basic

namespace ImagePolicy

/-! ### Disks that differ in one tree -/

namespace Disk

variable {d d' d'' : Disk} {root p q : Path} {n : Node} {text : String} {content : Bytes}

/-- The content of the file that a written path leads to, if it can be copied. -/
def fileAt? (d : Disk) (text : String) : Option Bytes :=
  (d.resolve? text).bind d.fileContent?

/-- Nothing stands at a path, nor under it. -/
def Unused (d : Disk) (root : Path) : Prop :=
  ∀ p, within root p = true → d.node? p = none

/-- A disk is as another was, but for what stands at a path and under it. -/
def SameOutside (root : Path) (d d' : Disk) : Prop :=
  ∀ p, within root p = false → d'.node? p = d.node? p

theorem unused_of_entries (hroot : root ≠ []) (h : ∀ e ∈ d.entries, within root e.1 = false) :
    d.Unused root := by
  intro p hp
  rw [node?, if_neg (ne_nil_of_within hroot hp), List.lookup_eq_none_iff]
  intro e he
  refine bne_iff_ne.mpr fun heq => ?_
  rw [heq, h e he] at hp
  cases hp

/-- What stood on the disk still stands there, if nothing stood where the disk has changed. -/
theorem SameOutside.node?_eq (h : SameOutside root d d') (hunused : d.Unused root)
    (hn : d.node? p = some n) : d'.node? p = some n := by
  have houtside : within root p = false := by
    rw [Bool.eq_false_iff]
    intro hwithin
    rw [hunused p hwithin] at hn
    cases hn
  rw [h p houtside, hn]

/-- A path that can be followed can be followed where no directory is missing. -/
theorem follow?_mono (h : ∀ p, d.isDirectory p = true → d'.isDirectory p = true) :
    ∀ (names : List String) (p : Path), d.follow? p names = some q → d'.follow? p names = some q
  | [], _, hq => hq
  | name :: names, p, hq => by
    have ih := follow?_mono h names
    unfold follow? at hq ⊢
    by_cases hp : d.isDirectory p = true
    · rw [hp] at hq
      rw [h p hp]
      simp only [Bool.not_true, Bool.false_eq_true, ↓reduceIte] at hq ⊢
      by_cases hstay : name = "" ∨ name = "."
      · rw [if_pos hstay] at hq ⊢
        exact ih p hq
      · rw [if_neg hstay] at hq ⊢
        by_cases hup : name = ".."
        · rw [if_pos hup] at hq ⊢
          exact ih _ hq
        · rw [if_neg hup] at hq ⊢
          exact ih _ hq
    · rw [Bool.not_eq_true] at hp
      rw [hp] at hq
      cases hq

/-- A file that could be read is read as before. -/
theorem SameOutside.fileAt?_eq (h : SameOutside root d d') (hunused : d.Unused root)
    (hfile : d.fileAt? text = some content) : d'.fileAt? text = some content := by
  obtain ⟨p, hresolve, hcontent⟩ := Option.bind_eq_some_iff.mp hfile
  have hdirectory : ∀ q, d.isDirectory q = true → d'.isDirectory q = true := by
    intro q hq
    exact decide_eq_true (h.node?_eq hunused (of_decide_eq_true hq))
  have hresolve' : d'.resolve? text = some p := by
    unfold resolve? resolveFrom? at hresolve ⊢
    by_cases htext : text = "" ∨ text.toList.contains '\x00'
    · rw [if_pos htext] at hresolve
      cases hresolve
    · rw [if_neg htext] at hresolve ⊢
      exact follow?_mono hdirectory _ _ hresolve
  have hcontent' : d'.fileContent? p = some content := by
    unfold fileContent? at hcontent
    split at hcontent
    · next held hnode =>
      cases hcontent
      rw [fileContent?, h.node?_eq hunused hnode]
    · cases hcontent
  rw [fileAt?, hresolve', Option.bind_some, hcontent']

theorem SameOutside.put (h : SameOutside root d d') (hp : within root p = true) (n : Node) :
    SameOutside root d (d'.put p n) := by
  intro q hq
  have hne : q ≠ p := by
    rintro rfl
    rw [hp] at hq
    cases hq
  rw [node?_put_ne hne, h q hq]

/-- A file is written into a directory that is there, where nothing but a file stands. -/
theorem write?_eq_put (hp : p ≠ []) (hdirectory : d.isDirectory p.dropLast = true)
    {held : Option Bytes} (hheld : d.node? p = held.map .file) :
    d.write? p content = some (d.put p (.file content)) := by
  have hnull : d.node? p ≠ some .null := by
    rw [hheld]
    cases held <;> simp
  have hfile : d.isDirectory p = false := by
    rw [isDirectory, hheld]
    cases held <;> simp
  rw [write?, if_neg hnull, if_pos ⟨hp, hdirectory, by simp [hfile]⟩]

end Disk

/-! ### The last file of a name -/

section Names

variable {rules : List String} {rule last name : String}

/-- The last of some rule files that has a name. -/
def lastNamed? (rules : List String) (name : String) : Option String :=
  rules.reverse.find? fun rule => fileName? rule = some name

/-- No file that is listed behind a rule file has the same name. -/
def IsLast (rules : List String) (rule : String) : Prop :=
  ∃ before after, rules = before ++ rule :: after ∧
    ∀ other ∈ after, fileName? other ≠ fileName? rule

theorem lastNamed?_cons (rule : String) (rules : List String) (name : String) :
    lastNamed? (rule :: rules) name =
      (lastNamed? rules name).or (if fileName? rule = some name then some rule else none) := by
  rw [lastNamed?, List.reverse_cons, List.find?_append, lastNamed?]
  by_cases h : fileName? rule = some name <;> simp [h]

theorem lastNamed?_eq_some_iff :
    lastNamed? rules name = some rule ↔ fileName? rule = some name ∧ IsLast rules rule := by
  rw [lastNamed?, List.find?_eq_some_iff_append, decide_eq_true_iff]
  refine and_congr_right fun hname => ?_
  constructor
  · rintro ⟨after, before, heq, hafter⟩
    refine ⟨before.reverse, after.reverse, ?_, fun other hother => ?_⟩
    · rw [← List.reverse_reverse rules, heq]
      simp
    · have hnot := hafter other (List.mem_reverse.mp hother)
      rw [hname]
      simpa using hnot
  · rintro ⟨before, after, rfl, hafter⟩
    refine ⟨after.reverse, before.reverse, by simp, fun other hother => ?_⟩
    have hnot := hafter other (List.mem_reverse.mp hother)
    rw [hname] at hnot
    simpa using hnot

theorem IsLast.mem (h : IsLast rules rule) : rule ∈ rules := by
  obtain ⟨before, after, rfl, -⟩ := h
  exact List.mem_append_right before List.mem_cons_self

/-- If no two files have one name, each is the last of its name. -/
theorem isLast_of_nodup (hnodup : (rules.map fileName?).Nodup) (hrule : rule ∈ rules) :
    IsLast rules rule := by
  obtain ⟨before, after, rfl⟩ := List.append_of_mem hrule
  refine ⟨before, after, rfl, fun other hother heq => ?_⟩
  rw [List.map_append, List.map_cons] at hnodup
  have hfirst := (List.nodup_cons.mp (List.nodup_append.mp hnodup).2.1).1
  exact hfirst (heq ▸ List.mem_map_of_mem hother)

end Names

/-! ### Filling a workspace -/

namespace EngineCommand

open Disk

variable {cmd : EngineCommand} {host : Host} {inputs : List Path} {c : PolicyContext} {t : Token}
  {d d₁ d₂ d' : Disk} {w : Workspace} {rule name : String} {rules : List String}
  {files : String → Option Bytes}

theorem copyRules_cons (hcopy : copyRule w rule d = .ok d₁) :
    copyRules w (rule :: rules) d = copyRules w rules d₁ := by
  rw [copyRules, hcopy]

/-- Rule files that were copied have names. -/
theorem isSome_fileName?_of_copyRules : ∀ {rules : List String} {d : Disk},
    copyRules w rules d = (.ok (), d') → ∀ rule ∈ rules, (fileName? rule).isSome = true
  | [], _, _ => nofun
  | rule :: rules, d, h => by
    cases hcopy : copyRule w rule d with
    | error e =>
      rw [copyRules, hcopy] at h
      cases h
    | ok d₁ =>
      rw [copyRules_cons hcopy] at h
      refine List.forall_mem_cons.mpr ⟨?_, isSome_fileName?_of_copyRules h⟩
      cases hname : fileName? rule with
      | none =>
        rw [copyRule, hname] at hcopy
        cases hcopy
      | some name => rfl

/-- A workspace that is being filled. The disk outside of it is as it was; its two directories are
there; in the one for rules stand some files under their names and nothing else, and nothing stands
where the configuration goes. -/
structure Staging (d : Disk) (w : Workspace) (files : String → Option Bytes) (d' : Disk) :
    Prop where
  outside : SameOutside w.root d d'
  policy : d'.isDirectory w.policyDirectory = true
  data : d'.isDirectory w.dataDirectory = true
  held : ∀ name, d'.node? (w.policyDirectory ++ [name]) = (files name).map .file
  unconfigured : d'.node? w.configFile = none

theorem within_policyDirectory (w : Workspace) (names : List String) :
    within w.root (w.policyDirectory ++ names) = true := by
  simp [within, Workspace.policyDirectory]

theorem within_configFile (w : Workspace) : within w.root w.configFile = true := by
  simp [within, Workspace.configFile, Workspace.dataDirectory]

theorem policyDirectory_ne_configFile (w : Workspace) (name : String) :
    w.policyDirectory ++ [name] ≠ w.configFile := by
  simp [Workspace.policyDirectory, Workspace.configFile, Workspace.dataDirectory]

/-- A workspace that was just made holds no rules. -/
theorem staging_create (hunused : d.Unused (d.nextScratch "custos-")) (retain : Bool) :
    Staging d (Workspace.create retain d).1 (fun _ => none) (Workspace.create retain d).2 := by
  have hroot : (Workspace.create retain d).1.root = d.nextScratch "custos-" := rfl
  generalize hw : (Workspace.create retain d).1 = w at hroot ⊢
  have hmade : (Workspace.create retain d).2 =
      ((d.makeScratch "custos-").2.put w.policyDirectory .directory).put w.dataDirectory
        .directory := by
    rw [← hw]
    rfl
  have hscratch : SameOutside w.root d (d.makeScratch "custos-").2 := by
    refine SameOutside.put (fun _ _ => rfl) ?_ .directory
    simp [within, hroot]
  have hempty : ∀ p, within w.root p = true → p ≠ w.root → p ≠ w.policyDirectory →
      p ≠ w.dataDirectory → (Workspace.create retain d).2.node? p = none := by
    intro p hp hr hpolicy hdata
    rw [hmade, node?_put_ne hdata, node?_put_ne hpolicy]
    exact (node?_put_ne (hroot ▸ hr)).trans (hunused p (hroot ▸ hp))
  refine ⟨?_, ?_, ?_, fun name => hempty _ (within_policyDirectory w _) ?_ ?_ ?_,
    hempty _ (within_configFile w) ?_ ?_ ?_⟩
  · rw [hmade]
    refine (hscratch.put ?_ _).put ?_ _
    · simpa using within_policyDirectory w []
    · simp [within, Workspace.dataDirectory]
  · have hne : w.policyDirectory ≠ w.dataDirectory := by
      simp [Workspace.policyDirectory, Workspace.dataDirectory]
    rw [hmade, isDirectory, node?_put_ne hne, node?_put_self (by simp [Workspace.policyDirectory])]
    rfl
  · rw [hmade, isDirectory, node?_put_self (by simp [Workspace.dataDirectory])]
    rfl
  all_goals simp [Workspace.policyDirectory, Workspace.dataDirectory, Workspace.configFile]

/-- **Copying a rule file** puts what it held into its place. -/
theorem Staging.copyRule (h : Staging d w files d₁) (hunused : d.Unused w.root)
    (hname : fileName? rule = some name) {content : Bytes} (hfile : d.fileAt? rule = some content) :
    ∃ d₂, copyRule w rule d₁ = .ok d₂ ∧
      Staging d w (Function.update files name (some content)) d₂ := by
  have hread : (d₁.resolve? rule).bind d₁.fileContent? = some content :=
    h.outside.fileAt?_eq hunused hfile
  have hwrite : d₁.write? (w.policyDirectory ++ [name]) content =
      some (d₁.put (w.policyDirectory ++ [name]) (.file content)) :=
    write?_eq_put (by simp) (by simpa using h.policy) (h.held name)
  have hkept : ∀ q, q ≠ w.policyDirectory ++ [name] →
      (d₁.put (w.policyDirectory ++ [name]) (.file content)).node? q = d₁.node? q :=
    fun q hq => node?_put_ne hq
  refine ⟨d₁.put (w.policyDirectory ++ [name]) (.file content),
    by simp only [EngineCommand.copyRule, hname, hread, hwrite],
    h.outside.put (within_policyDirectory w _) _, ?_, ?_, fun other => ?_, ?_⟩
  · rw [isDirectory, hkept _ (by simp)]
    exact h.policy
  · rw [isDirectory, hkept _ (by simp [Workspace.policyDirectory, Workspace.dataDirectory])]
    exact h.data
  · by_cases hother : other = name
    · subst hother
      rw [node?_put_self (by simp), Function.update_self]
      rfl
    · rw [hkept _ (by simpa using hother), Function.update_of_ne hother, h.held]
  · rw [hkept _ (policyDirectory_ne_configFile w name).symm, h.unconfigured]

/-- **Copying rule files** puts what the last of each name held into its place. -/
theorem Staging.copyRules (hunused : d.Unused w.root) : ∀ {rules : List String}
    {files : String → Option Bytes} {d₁ : Disk}, Staging d w files d₁ →
    (∀ rule ∈ rules, (fileName? rule).isSome = true) →
    (∀ rule ∈ rules, (d.fileAt? rule).isSome = true) →
    ∃ d₂, copyRules w rules d₁ = (.ok (), d₂) ∧
      Staging d w (fun name => ((lastNamed? rules name).bind d.fileAt?).or (files name)) d₂
  | [], _, d₁, h, _, _ => ⟨d₁, rfl, h⟩
  | rule :: rules, files, d₁, h, hnamed, hreadable => by
    obtain ⟨hsome, hnames⟩ := List.forall_mem_cons.mp hnamed
    obtain ⟨hrule, hrules⟩ := List.forall_mem_cons.mp hreadable
    obtain ⟨name, hname⟩ := Option.isSome_iff_exists.mp hsome
    obtain ⟨content, hcontent⟩ := Option.isSome_iff_exists.mp hrule
    obtain ⟨d', hcopy, hstaging⟩ := h.copyRule hunused hname hcontent
    obtain ⟨d₂, hcopies, hall⟩ := Staging.copyRules hunused hstaging hnames hrules
    have hfiles : ∀ other, ((lastNamed? (rule :: rules) other).bind d.fileAt?).or (files other) =
        ((lastNamed? rules other).bind d.fileAt?).or
          (Function.update files name (some content) other) := by
      intro other
      rw [lastNamed?_cons]
      cases hlast : lastNamed? rules other with
      | some last =>
        have hmem : last ∈ rules := (lastNamed?_eq_some_iff.mp hlast).2.mem
        obtain ⟨held, hheld⟩ := Option.isSome_iff_exists.mp (hrules last hmem)
        simp [hheld]
      | none =>
        by_cases hother : other = name
        · subst hother
          simp [hname, hcontent]
        · have hne : name ≠ other := fun heq => hother heq.symm
          simp [hname, hother, hne]
    refine ⟨d₂, (copyRules_cons hcopy).trans hcopies, ?_⟩
    rw [funext hfiles]
    exact hall

/-! ### What a started engine finds -/

/-- The program of a command is started: its workspace is made and filled. -/
structure Starts (cmd : EngineCommand) (c : PolicyContext) (t : Token) (d : Disk) (w : Workspace)
    (d' : Disk) : Prop where
  live : t.cancelled = false
  workspace : w = (Workspace.create cmd.retain d).1
  staged : cmd.stage w c (Workspace.create cmd.retain d).2 = (.ok (), d')

/-- It is started on the disk that its workspace was filled on. -/
theorem evaluate_of_starts (h : cmd.Starts c t d w d') :
    cmd.evaluate host inputs c t d =
      match host (cmd.invocation w inputs) d' with
      | none => (.error (.failed ("failed to start `" ++ cmd.program ++ "`")), (w.release d').2)
      | some f => (cmd.outcome t f, (w.release f.disk).2) := by
  obtain ⟨hlive, rfl, hstaged⟩ := h
  cases hhost : host (cmd.invocation (Workspace.create cmd.retain d).1 inputs) d' with
  | none => simp [evaluate, hlive, hstaged, hhost]
  | some f => simp [evaluate, hlive, hstaged, hhost]

theorem isSome_fileName?_of_starts (h : cmd.Starts c t d w d') :
    ∀ rule ∈ cmd.rules, (fileName? rule).isSome = true := by
  obtain ⟨-, rfl, hstaged⟩ := h
  unfold stage at hstaged
  split at hstaged
  · cases hstaged
  · next hcopied => exact isSome_fileName?_of_copyRules hcopied

/-- **A workspace is filled** if the rule files can be read and have names. Then what stands under a
name is what the last of the files with this name held. -/
theorem exists_stage (hunused : d.Unused (d.nextScratch "custos-"))
    (hnamed : ∀ rule ∈ cmd.rules, (fileName? rule).isSome = true)
    (hreadable : ∀ rule ∈ cmd.rules, (d.fileAt? rule).isSome = true) (c : PolicyContext) :
    ∃ d', cmd.stage (Workspace.create cmd.retain d).1 c (Workspace.create cmd.retain d).2 =
        (.ok (), d') ∧
      ∀ name, d'.fileContent? ((Workspace.create cmd.retain d).1.policyDirectory ++ [name]) =
        (lastNamed? cmd.rules name).bind d.fileAt? := by
  obtain ⟨d₂, hcopies, hstaging⟩ :=
    (staging_create hunused cmd.retain).copyRules hunused hnamed hreadable
  generalize (Workspace.create cmd.retain d).1 = w at hcopies hstaging ⊢
  have hdirectory : d₂.isDirectory w.configFile.dropLast = true := by
    simpa [Workspace.configFile] using hstaging.data
  have hheld : d₂.node? w.configFile = (none : Option Bytes).map .file := hstaging.unconfigured
  have hconfig : w.writeConfig? c d₂ =
      some (d₂.put w.configFile (.file (Workspace.configBytes c))) :=
    write?_eq_put (by simp [Workspace.configFile]) hdirectory hheld
  refine ⟨_, by simp only [stage, hcopies, hconfig]; rfl, fun name => ?_⟩
  rw [fileContent?, node?_put_ne (policyDirectory_ne_configFile w name), hstaging.held,
    Option.or_none]
  cases (lastNamed? cmd.rules name).bind d.fileAt? <;> rfl

/-- A command whose rule files can be read and have names is started. -/
theorem exists_starts (ht : t.cancelled = false) (hunused : d.Unused (d.nextScratch "custos-"))
    (hnamed : ∀ rule ∈ cmd.rules, (fileName? rule).isSome = true)
    (hreadable : ∀ rule ∈ cmd.rules, (d.fileAt? rule).isSome = true) (c : PolicyContext) :
    ∃ d', cmd.Starts c t d (Workspace.create cmd.retain d).1 d' := by
  obtain ⟨d', hstaged, -⟩ := exists_stage hunused hnamed hreadable c
  exact ⟨d', ht, rfl, hstaged⟩

/-- **What an engine finds under a name** is what the last of its rule files with this name held. -/
theorem fileContent?_of_starts (hunused : d.Unused (d.nextScratch "custos-"))
    (hreadable : ∀ rule ∈ cmd.rules, (d.fileAt? rule).isSome = true)
    (h : cmd.Starts c t d w d') (name : String) :
    d'.fileContent? (w.policyDirectory ++ [name]) =
      (lastNamed? cmd.rules name).bind d.fileAt? := by
  have hnamed := isSome_fileName?_of_starts h
  obtain ⟨-, rfl, hstaged⟩ := h
  obtain ⟨d₂, hstaged', hfound⟩ := exists_stage hunused hnamed hreadable c
  obtain rfl : d' = d₂ := congrArg Prod.snd (hstaged.symm.trans hstaged')
  exact hfound name

/-- Of every rule file the directory for rules has a file that holds just what it held. -/
def Complete (cmd : EngineCommand) (d : Disk) (w : Workspace) (d' : Disk) : Prop :=
  ∀ rule ∈ cmd.rules, ∃ name, d'.fileContent? (w.policyDirectory ++ [name]) = d.fileAt? rule

/-- Nothing is missing just if each rule file holds the same as some file that is the last of its
name. -/
theorem complete_iff (hunused : d.Unused (d.nextScratch "custos-"))
    (hreadable : ∀ rule ∈ cmd.rules, (d.fileAt? rule).isSome = true)
    (h : cmd.Starts c t d w d') : cmd.Complete d w d' ↔
      ∀ rule ∈ cmd.rules, ∃ last, IsLast cmd.rules last ∧ d.fileAt? last = d.fileAt? rule := by
  refine forall₂_congr fun rule hrule => ?_
  simp only [fileContent?_of_starts hunused hreadable h]
  constructor
  · rintro ⟨name, hname⟩
    cases hlast : lastNamed? cmd.rules name with
    | none =>
      have hsome := hreadable rule hrule
      rw [← hname, hlast] at hsome
      cases hsome
    | some last =>
      rw [hlast, Option.bind_some] at hname
      exact ⟨last, (lastNamed?_eq_some_iff.mp hlast).2, hname⟩
  · rintro ⟨last, hlast, hsame⟩
    obtain ⟨name, hname⟩ := Option.isSome_iff_exists.mp
      (isSome_fileName?_of_starts h last hlast.mem)
    refine ⟨name, ?_⟩
    rw [lastNamed?_eq_some_iff.mpr ⟨hname, hlast⟩, Option.bind_some, hsame]

/-- What an engine finds of its rule files when it is started. -/
structure Finds (cmd : EngineCommand) (host : Host) (inputs : List Path) (c : PolicyContext)
    (t : Token) (d : Disk) (w : Workspace) (d' : Disk) : Prop where
  /-- The program is started on the disk that its workspace was filled on. -/
  started : cmd.evaluate host inputs c t d =
    match host (cmd.invocation w inputs) d' with
    | none => (.error (.failed ("failed to start `" ++ cmd.program ++ "`")), (w.release d').2)
    | some f => (cmd.outcome t f, (w.release f.disk).2)
  /-- Under a name it finds what the last file of this name held. -/
  named : ∀ name, d'.fileContent? (w.policyDirectory ++ [name]) =
    (lastNamed? cmd.rules name).bind d.fileAt?
  /-- Nothing is missing just if each file holds the same as one that is the last of its name. -/
  complete_iff : cmd.Complete d w d' ↔
    ∀ rule ∈ cmd.rules, ∃ last, IsLast cmd.rules last ∧ d.fileAt? last = d.fileAt? rule
  /-- Nothing is missing if no two files have one name. -/
  complete : (cmd.rules.map fileName?).Nodup → cmd.Complete d w d'

/-- **Which rule files an engine finds.** If all rule files can be read and the engine is started,
it finds under each name the last file of that name. So files are missing from what it finds just
if they were overwritten by others of their names and nothing else that is left holds the same. -/
theorem rules_found (hunused : d.Unused (d.nextScratch "custos-"))
    (hreadable : ∀ rule ∈ cmd.rules, (d.fileAt? rule).isSome = true)
    (h : cmd.Starts c t d w d') : cmd.Finds host inputs c t d w d' where
  started := evaluate_of_starts h
  named := fileContent?_of_starts hunused hreadable h
  complete_iff := complete_iff hunused hreadable h
  complete := by
    intro hnodup
    rw [complete_iff hunused hreadable h]
    exact fun rule hrule => ⟨rule, isLast_of_nodup hnodup hrule, rfl⟩

/-- Two rule files of one name, and a third that holds the same as the first. -/
def twins : Disk :=
  ((Disk.blank.install "a/x.rego" (Utf8.encode "package a".toList)).install "b/x.rego"
    (Utf8.encode "package b".toList)).install "y.rego" (Utf8.encode "package a".toList)

theorem unused_twins : twins.Unused (twins.nextScratch "custos-") :=
  unused_of_entries (by decide +kernel) (by decide +kernel)

/-- The first of two files of one name is overwritten, but what it held is found elsewhere. -/
theorem rules_found_twice :
    let cmd : EngineCommand := { program := "sh", rules := ["a/x.rego", "b/x.rego", "y.rego"] }
    let host : Host := fun _ _ => none
    let c : PolicyContext := ⟨"key", none, [], [], [], [], [], .now ⟨0, 0⟩⟩
    let w := (Workspace.create false twins).1
    twins.Unused (twins.nextScratch "custos-") ∧
    (∀ rule ∈ cmd.rules, (twins.fileAt? rule).isSome = true) ∧
    ∃ d', cmd.Starts c {} twins w d' ∧ cmd.Finds host [] c {} twins w d' ∧
      cmd.Complete twins w d' := by
  intro cmd host c w
  have hnamed : ∀ rule ∈ cmd.rules, (fileName? rule).isSome = true := by decide +kernel
  have hreadable : ∀ rule ∈ cmd.rules, (twins.fileAt? rule).isSome = true := by decide +kernel
  obtain ⟨d', hstarts⟩ := exists_starts (t := {}) rfl unused_twins hnamed hreadable c
  have hfinds : cmd.Finds host [] c {} twins w d' := rules_found unused_twins hreadable hstarts
  refine ⟨unused_twins, hreadable, d', hstarts, hfinds, hfinds.complete_iff.mpr ?_⟩
  have hb : IsLast cmd.rules "b/x.rego" := ⟨["a/x.rego"], ["y.rego"], rfl, by decide +kernel⟩
  have hy : IsLast cmd.rules "y.rego" := ⟨["a/x.rego", "b/x.rego"], [], rfl, by decide +kernel⟩
  intro rule hrule
  simp only [cmd, List.mem_cons, List.not_mem_nil, or_false] at hrule
  rcases hrule with rfl | rfl | rfl
  · exact ⟨"y.rego", hy, by decide +kernel⟩
  · exact ⟨"b/x.rego", hb, rfl⟩
  · exact ⟨"y.rego", hy, rfl⟩

/-- **A rule file can be lost**: the second of two with one name takes the place of the first, and
the engine is started all the same. -/
theorem rule_overwritten :
    let cmd : EngineCommand := { program := "sh", rules := ["a/x.rego", "b/x.rego"] }
    let c : PolicyContext := ⟨"key", none, [], [], [], [], [], .now ⟨0, 0⟩⟩
    let w := (Workspace.create false twins).1
    (∀ rule ∈ cmd.rules, (twins.fileAt? rule).isSome = true) ∧
    ∃ d', cmd.Starts c {} twins w d' ∧ ¬cmd.Complete twins w d' := by
  intro cmd c w
  have hnamed : ∀ rule ∈ cmd.rules, (fileName? rule).isSome = true := by decide +kernel
  have hreadable : ∀ rule ∈ cmd.rules, (twins.fileAt? rule).isSome = true := by decide +kernel
  obtain ⟨d', hstarts⟩ := exists_starts (t := {}) rfl unused_twins hnamed hreadable c
  refine ⟨hreadable, d', hstarts, fun hcomplete => ?_⟩
  obtain ⟨name, hname⟩ := hcomplete "a/x.rego" (by decide)
  rw [fileContent?_of_starts unused_twins hreadable hstarts] at hname
  have ha : fileName? "a/x.rego" = some "x.rego" := by decide +kernel
  have hb : fileName? "b/x.rego" = some "x.rego" := by decide +kernel
  have hdiffer : twins.fileAt? "b/x.rego" ≠ twins.fileAt? "a/x.rego" := by decide +kernel
  by_cases hx : "x.rego" = name
  · have hlast : lastNamed? cmd.rules name = some "b/x.rego" := by
      simp [cmd, lastNamed?, hb, hx]
    rw [hlast] at hname
    exact hdiffer hname
  · have hlast : lastNamed? cmd.rules name = none := by
      simp [cmd, lastNamed?, ha, hb, hx]
    have hsome := hreadable "a/x.rego" (by decide)
    rw [← hname, hlast] at hsome
    cases hsome

end EngineCommand
end ImagePolicy
