/-
# The workspaces that stand on a disk

Scratch directories are numbered and no number is given twice, so a workspace is told by its name:
two of them never share one (`Disk.workspacePath_injective`), nor is one named as staged input is.
What the library itself puts on a disk is summed up by the workspaces that the disk gains
(`Disk.Gains`). These add up one after the other, and files that are written count for nothing.

Programs may do as they please with a disk. So of one evaluation of a command it is said which disk
its program is started on, and which one it leaves (`EngineCommand.started?`). However the
evaluation ends, its workspace is released (`EngineCommand.evaluate_released`): where the program
neither makes nor removes a workspace, one stands if it did before or is the one that was made, and
if that one is not to be retained it does not stand (`EngineCommand.holdsWorkspace_evaluate`).

Key definitions: `Disk.workspacePath`, `Disk.HoldsWorkspace`, `Disk.Fresh`, `Disk.Gains`,
`EngineCommand.started?`.
Key theorems: `Disk.Gains.trans`, `Disk.Gains.fresh`, `Disk.holdsWorkspace_removeTree`,
`EngineCommand.gains_stage`, `EngineCommand.evaluate_released`,
`EngineCommand.holdsWorkspace_evaluate`.
-/
import ImagePolicy.Proofs.Scratch.Disk
import ImagePolicy.Proofs.Text.Digits
import ImagePolicy.Engine.Command

namespace ImagePolicy
namespace Disk

/-! ### Names of scratch directories -/

/-- The path of the scratch directory with a label and a number. -/
def scratchPath (label : String) (n : Nat) : Path :=
  scratchDirectory ++ [label ++ String.ofList (Text.padded 6 n)]

/-- The path of the workspace with a number. -/
def workspacePath (n : Nat) : Path :=
  scratchPath "custos-" n

theorem length_workspacePath (n : Nat) : (workspacePath n).length = 2 :=
  rfl

theorem workspacePath_ne_nil (n : Nat) : workspacePath n ≠ [] :=
  List.cons_ne_nil _ _

theorem scratchPath_eq_iff {label label' : String} {m n : Nat} :
    scratchPath label m = scratchPath label' n ↔
      label.toList ++ Text.padded 6 m = label'.toList ++ Text.padded 6 n := by
  simp [scratchPath, ← String.toList_inj]

theorem workspacePath_injective : Function.Injective workspacePath := fun _ _ h =>
  Text.padded_injective 6 (List.append_cancel_left (scratchPath_eq_iff.mp h))

/-- Staged input has another name than any workspace: no number begins with a letter. -/
theorem workspacePath_ne_input (m n : Nat) : workspacePath m ≠ scratchPath "custos-input-" n := by
  intro h
  have hname := scratchPath_eq_iff.mp h
  rw [show "custos-input-".toList = "custos-".toList ++ "input-".toList from rfl,
    List.append_assoc] at hname
  have hletter : 'i' ∈ Text.padded 6 m := by
    rw [List.append_cancel_left hname]
    exact List.mem_append_left _ (by decide)
  exact absurd (Text.isSome_digit?_of_mem_padded hletter) (by decide)

/-! ### Workspaces that are gained -/

/-- A path leads to a workspace. -/
def HoldsWorkspace (d : Disk) (p : Path) : Prop :=
  d.isDirectory p = true ∧ ∃ n, p = workspacePath n

/-- No workspace has a number that is still to be given. -/
def Fresh (d : Disk) : Prop :=
  ∀ n, d.scratches ≤ n → ¬ d.HoldsWorkspace (workspacePath n)

/-- Of workspaces, a disk has gained some, with numbers that were still to be given, and lost
none. -/
structure Gains (d d' : Disk) (roots : List Path) : Prop where
  holds : ∀ p, d'.HoldsWorkspace p ↔ d.HoldsWorkspace p ∨ p ∈ roots
  scratches : d.scratches ≤ d'.scratches
  numbered : ∀ p ∈ roots, ∃ n, p = workspacePath n ∧ n < d'.scratches

variable {d d' d'' : Disk} {p q : Path} {roots more : List Path}

/-- A path leads to a workspace as it did before if the same stands there. -/
theorem holdsWorkspace_congr (h : ∀ n, p = workspacePath n → d'.node? p = d.node? p) :
    d'.HoldsWorkspace p ↔ d.HoldsWorkspace p := by
  refine and_congr_left ?_
  rintro ⟨n, hn⟩
  rw [isDirectory, isDirectory, h n hn]

/-- A disk where the same stands at the paths of workspaces has gained none. -/
theorem gains_nil (h : ∀ n, d'.node? (workspacePath n) = d.node? (workspacePath n))
    (hscratches : d.scratches ≤ d'.scratches) : d.Gains d' [] where
  holds p := by
    rw [holdsWorkspace_congr (by rintro n rfl; exact h n)]
    simp
  scratches := hscratches
  numbered := List.forall_mem_nil _

theorem Gains.refl (d : Disk) : d.Gains d [] :=
  gains_nil (fun _ => rfl) (le_refl _)

/-- What is gained first and what is gained then is gained in all. -/
theorem Gains.trans (h : d.Gains d' roots) (h' : d'.Gains d'' more) :
    d.Gains d'' (roots ++ more) where
  holds p := by rw [h'.holds, h.holds, List.mem_append, or_assoc]
  scratches := h.scratches.trans h'.scratches
  numbered p hp := by
    rcases List.mem_append.mp hp with hp | hp
    · obtain ⟨n, hn, hlt⟩ := h.numbered p hp
      exact ⟨n, hn, lt_of_lt_of_le hlt h'.scratches⟩
    · exact h'.numbered p hp

theorem Gains.fresh (h : d.Gains d' roots) (hd : d.Fresh) : d'.Fresh := by
  intro n hn hholds
  rcases (h.holds _).mp hholds with hold | hnew
  · exact hd n (h.scratches.trans hn) hold
  · obtain ⟨m, hm, hlt⟩ := h.numbered _ hnew
    obtain rfl := workspacePath_injective hm
    omega

/-! ### What is put and what is removed -/

/-- A node that is put deeper than workspaces stand is no gain. -/
theorem gains_put (n : Node) (h : 2 < p.length) : d.Gains (d.put p n) [] :=
  gains_nil (fun m => node?_put_ne fun hp => by simp [← hp, length_workspacePath] at h) (le_refl _)

/-- Nor is a file that is written there. -/
theorem gains_write {content : Bytes} (h : 2 < p.length) (hw : d.write? p content = some d') :
    d.Gains d' [] := by
  unfold write? at hw
  split at hw
  · obtain rfl := Option.some.inj hw
    exact .refl d
  · split at hw
    · obtain rfl := Option.some.inj hw
      exact gains_put _ h
    · cases hw

/-- Making a directory by the name of a workspace makes that one and no other. -/
theorem holdsWorkspace_put_directory (d : Disk) (m : Nat) :
    (d.put (workspacePath m) .directory).HoldsWorkspace p ↔
      d.HoldsWorkspace p ∨ p = workspacePath m := by
  by_cases hp : p = workspacePath m
  · subst hp
    refine ⟨fun _ => .inr rfl, fun _ => ⟨?_, m, rfl⟩⟩
    rw [isDirectory, node?_put_self (workspacePath_ne_nil m)]
    rfl
  · rw [or_iff_left hp]
    exact holdsWorkspace_congr fun _ _ => node?_put_ne hp

/-- A scratch directory for a workspace is a gain. -/
theorem gains_makeScratch (d : Disk) :
    d.Gains (d.makeScratch "custos-").2 [(d.makeScratch "custos-").1] where
  holds p := by
    rw [List.mem_singleton]
    exact d.holdsWorkspace_put_directory d.scratches
  scratches := Nat.le_succ _
  numbered p hp := ⟨d.scratches, List.mem_singleton.mp hp, Nat.lt_succ_self _⟩

/-- A scratch directory for staged input is none. -/
theorem gains_makeScratch_input (d : Disk) : d.Gains (d.makeScratch "custos-input-").2 [] :=
  gains_nil (fun n => node?_put_ne (workspacePath_ne_input n d.scratches))
    (Nat.le_succ _)

/-- A path as long as another leads through it only if it is the same. -/
theorem eq_of_within (h : within p q = true) (hlength : q.length = p.length) : p = q :=
  (List.isPrefixOf_iff_prefix.mp h).eq_of_length hlength.symm

/-- Removing what stands where workspaces do, and is none, changes nothing about them. -/
theorem gains_removeTree (hlength : p.length = 2) (h : ∀ n, workspacePath n ≠ p) :
    d.Gains (d.removeTree p) [] := by
  refine gains_nil (fun n => node?_removeTree_of_not_within ?_) (le_refl _)
  refine Bool.eq_false_iff.mpr fun hwithin => h n ?_
  exact (eq_of_within hwithin hlength.symm).symm

/-- Removing a workspace removes that one and no other. -/
theorem holdsWorkspace_removeTree (d : Disk) (m : Nat) :
    (d.removeTree (workspacePath m)).HoldsWorkspace p ↔
      d.HoldsWorkspace p ∧ p ≠ workspacePath m := by
  by_cases hp : p = workspacePath m
  · subst hp
    refine iff_of_false ?_ fun h => h.2 rfl
    rintro ⟨hdirectory, -⟩
    rw [isDirectory, node?_removeTree (workspacePath_ne_nil m) (by simp [within])] at hdirectory
    simp at hdirectory
  · rw [and_iff_left hp]
    refine holdsWorkspace_congr fun n hn => node?_removeTree_of_not_within ?_
    refine Bool.eq_false_iff.mpr fun hwithin => hp ?_
    exact (eq_of_within hwithin (by rw [hn]; rfl)).symm

/-- On a disk with nothing but the usual directories no workspace has a number. -/
theorem fresh_blank : blank.Fresh := by
  rintro n - ⟨hdirectory, -⟩
  have hnone : ∀ e ∈ blank.entries, e.1.length ≠ 2 ∨ e.1.head? ≠ some "tmp" := by decide
  have hlookup : blank.entries.lookup (workspacePath n) = none := by
    refine List.lookup_eq_none_iff.mpr fun e he => bne_iff_ne.mpr fun heq => ?_
    rcases hnone e he with h | h
    · exact h (heq ▸ length_workspacePath n)
    · exact h (heq ▸ rfl)
  rw [isDirectory, node?, if_neg (workspacePath_ne_nil n), hlookup] at hdirectory
  simp at hdirectory

end Disk

/-! ### Staged input -/

namespace StagedInput

open Disk

/-- Staging input is no gain of workspaces. -/
theorem gains_stage (as : List Attestation) (d : Disk) : d.Gains (stage as d).2 [] :=
  (gains_makeScratch_input d).trans (gains_put _ (Nat.lt_succ_self 2))

/-- Nor is releasing it. -/
theorem gains_release (as : List Attestation) (d d' : Disk) :
    d'.Gains ((stage as d).1.release d') [] :=
  gains_removeTree rfl fun n => workspacePath_ne_input n d.scratches

/-- Nothing is left of released input, nor of the directory that it stood in. -/
theorem node?_release_stage (as : List Attestation) (d d' : Disk) {p : Path}
    (h : within (stage as d).1.directory p = true) :
    ((stage as d).1.release d').node? p = none := by
  refine node?_removeTree ?_ h
  rintro rfl
  cases h

end StagedInput

/-! ### The workspace of an evaluation -/

namespace EngineCommand

open Disk

variable {cmd : EngineCommand} {host : Host} {c : PolicyContext} {t : Token} {d d' : Disk}
  {w : Workspace} {inputs : List Path}

/-- The disk that the program of a command is started on when the command evaluates inputs, and how
the program ends, if it comes to starting it. -/
def started? (host : Host) (cmd : EngineCommand) (inputs : List Path) (c : PolicyContext)
    (t : Token) (d : Disk) : Option (Disk × Finished) :=
  if t.cancelled then none
  else
    let (w, d) := Workspace.create cmd.retain d
    match cmd.stage w c d with
    | (.error _, _) => none
    | (.ok (), d) => (host (cmd.invocation w inputs) d).map fun f => (d, f)

/-- What is started is the program of the command, with a workspace. -/
theorem exists_invocation {f : Finished}
    (h : cmd.started? host inputs c t d = some (d', f)) :
    ∃ w, host (cmd.invocation w inputs) d' = some f := by
  unfold started? at h
  split at h
  · cases h
  · simp only at h
    split at h
    · cases h
    · obtain ⟨f, hf, heq⟩ := Option.map_eq_some_iff.mp h
      cases heq
      exact ⟨_, hf⟩

theorem gains_copyRule (hw : w.root.length = 2) {rule : String} (h : copyRule w rule d = .ok d') :
    d.Gains d' [] := by
  unfold copyRule at h
  split at h
  · cases h
  · split at h
    · cases h
    · split at h
      · cases h
      · rename_i hwrite
        obtain rfl := Except.ok.inj h
        exact gains_write (by simp [Workspace.policyDirectory, hw]) hwrite

theorem gains_copyRules (hw : w.root.length = 2) : ∀ (rules : List String) (d : Disk),
    d.Gains (copyRules w rules d).2 []
  | [], d => .refl d
  | rule :: rules, d => by
    unfold copyRules
    cases hcopy : copyRule w rule d with
    | error e => exact .refl d
    | ok d' => exact (gains_copyRule hw hcopy).trans (gains_copyRules hw rules d')

/-- Whatever is staged in a workspace is no other workspace. -/
theorem gains_stage (hw : w.root.length = 2) (cmd : EngineCommand) (c : PolicyContext) (d : Disk) :
    d.Gains (cmd.stage w c d).2 [] := by
  have hrules := gains_copyRules hw cmd.rules d
  unfold stage
  rcases hcopied : copyRules w cmd.rules d with ⟨e | ⟨⟩, d'⟩ <;> rw [hcopied] at hrules
  · exact hrules
  · simp only
    cases hconfig : w.writeConfig? c d' with
    | none => exact hrules
    | some d'' =>
      have hdeep : 2 < w.configFile.length := by
        simp [Workspace.configFile, Workspace.dataDirectory, hw]
      exact hrules.trans (gains_write hdeep hconfig)

theorem gains_create (retain : Bool) (d : Disk) :
    d.Gains (Workspace.create retain d).2 [(Workspace.create retain d).1.root] := by
  have hpolicy : 2 < (Workspace.create retain d).1.policyDirectory.length := Nat.lt_succ_self 2
  have hdata : 2 < (Workspace.create retain d).1.dataDirectory.length := Nat.lt_succ_self 2
  exact ((gains_makeScratch d).trans (gains_put .directory hpolicy)).trans
    (gains_put .directory hdata)

/-- A workspace that was just made is removed on release unless it is to be retained. -/
theorem disk_release (retain : Bool) (d d' : Disk) :
    ((Workspace.create retain d).1.release d').2 =
      if retain then d' else d'.removeTree (Workspace.create retain d).1.root :=
  rfl

/-- What stands after the release is what stood before, but for a workspace that is not to be
retained. -/
theorem holdsWorkspace_release (retain : Bool) (d d' : Disk) {p : Path} :
    ((Workspace.create retain d).1.release d').2.HoldsWorkspace p ↔
      d'.HoldsWorkspace p ∧ (retain = false → p ≠ (Workspace.create retain d).1.root) := by
  have hroot : (Workspace.create retain d).1.root = workspacePath d.scratches := rfl
  cases retain with
  | true => exact (and_iff_left nofun).symm
  | false =>
    rw [disk_release, if_neg Bool.false_ne_true, hroot, holdsWorkspace_removeTree]
    exact and_congr_right' ⟨fun hp _ => hp, fun hp => hp rfl⟩

theorem scratches_release (retain : Bool) (d d' : Disk) :
    ((Workspace.create retain d).1.release d').2.scratches = d'.scratches := by
  cases retain <;> rfl

/-- **However an evaluation ends, its workspace is released**, unless the token was cancelled
before. Until its program is started, if it comes to that, the workspace is all that the disk has
gained; then it is the disk that the program leaves. -/
theorem evaluate_released (host : Host) (cmd : EngineCommand) (inputs : List Path)
    (c : PolicyContext) (ht : t.cancelled = false) (d : Disk) : ∃ d₁ d₂,
    d.Gains d₁ [(Workspace.create cmd.retain d).1.root] ∧
      (cmd.started? host inputs c t d = none ∧ d₂ = d₁ ∨
        ∃ f, cmd.started? host inputs c t d = some (d₁, f) ∧ d₂ = f.disk) ∧
      (cmd.evaluate host inputs c t d).2 = ((Workspace.create cmd.retain d).1.release d₂).2 := by
  have hcreate := gains_create cmd.retain d
  have hroot : (Workspace.create cmd.retain d).1.root.length = 2 := rfl
  unfold evaluate started?
  rw [ht]
  rcases hmade : Workspace.create cmd.retain d with ⟨w, d₀⟩
  rw [hmade] at hcreate hroot
  have hstage := hcreate.trans (gains_stage hroot cmd c d₀)
  rcases hstaged : cmd.stage w c d₀ with ⟨e | ⟨⟩, d₁⟩ <;> rw [hstaged] at hstage
  · simp only [Bool.false_eq_true, ↓reduceIte, hstaged]
    exact ⟨d₁, d₁, hstage, .inl ⟨trivial, rfl⟩, rfl⟩
  · simp only [Bool.false_eq_true, ↓reduceIte, hstaged]
    cases hstart : host (cmd.invocation w inputs) d₁ with
    | none => exact ⟨d₁, d₁, hstage, .inl ⟨rfl, rfl⟩, rfl⟩
    | some f => exact ⟨d₁, f.disk, hstage, .inr ⟨f, rfl, rfl⟩, rfl⟩

/-- **Where the program leaves things as they are**, a workspace stands after an evaluation if it
stood before, or if it was made for the evaluation, under a name that was free, and retained. -/
theorem holdsWorkspace_evaluate {p : Path} (ht : t.cancelled = false)
    (hfree : ¬d.HoldsWorkspace (Workspace.create cmd.retain d).1.root)
    (hleaves : ∀ d₁ f, cmd.started? host inputs c t d = some (d₁, f) →
      (f.disk.HoldsWorkspace p ↔ d₁.HoldsWorkspace p)) :
    (cmd.evaluate host inputs c t d).2.HoldsWorkspace p ↔ d.HoldsWorkspace p ∨
      cmd.retain = true ∧ (Workspace.create cmd.retain d).1.root = p := by
  obtain ⟨d₁, d₂, hgains, hends, hreleased⟩ := evaluate_released host cmd inputs c ht d
  have hkept : d₂.HoldsWorkspace p ↔ d₁.HoldsWorkspace p := by
    rcases hends with ⟨-, rfl⟩ | ⟨f, hstarted, rfl⟩
    · rfl
    · exact hleaves d₁ f hstarted
  rw [hreleased, holdsWorkspace_release, hkept, hgains.holds, List.mem_singleton]
  by_cases hp : p = (Workspace.create cmd.retain d).1.root
  · rw [← hp] at hfree
    simp [← hp, hfree]
  · simp [hp, Ne.symm hp]

/-- Numbers that are still to be given stay free if the program leaves them so. -/
theorem fresh_evaluate (ht : t.cancelled = false)
    (hleaves : ∀ d₁ f, cmd.started? host inputs c t d = some (d₁, f) → d₁.Fresh → f.disk.Fresh)
    (hd : d.Fresh) : (cmd.evaluate host inputs c t d).2.Fresh := by
  obtain ⟨d₁, d₂, hgains, hends, hreleased⟩ := evaluate_released host cmd inputs c ht d
  have hfresh : d₂.Fresh := by
    rcases hends with ⟨-, rfl⟩ | ⟨f, hstarted, rfl⟩
    · exact hgains.fresh hd
    · exact hleaves d₁ f hstarted (hgains.fresh hd)
  rw [hreleased]
  intro n hn hholds
  rw [scratches_release] at hn
  exact hfresh n hn ((holdsWorkspace_release _ _ _).mp hholds).1

/-- Nothing is left of a workspace that is not to be retained. -/
theorem node?_evaluate (ht : t.cancelled = false) (hretain : cmd.retain = false) {p : Path}
    (h : within (Workspace.create cmd.retain d).1.root p = true) :
    (cmd.evaluate host inputs c t d).2.node? p = none := by
  obtain ⟨-, d₂, -, -, hreleased⟩ := evaluate_released host cmd inputs c ht d
  have hp : p ≠ [] := by
    rintro rfl
    cases h
  rw [hreleased, disk_release, if_neg (by simp [hretain])]
  exact node?_removeTree hp h

/-- With a token that is cancelled nothing is made. -/
theorem evaluate_cancelled (ht : t.cancelled = true) :
    cmd.evaluate host inputs c t d = (.error .cancelled, d) := by
  rw [evaluate, if_pos ht]

end EngineCommand
end ImagePolicy
