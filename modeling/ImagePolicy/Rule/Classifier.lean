/-
# Classification

What a policy makes of the results of rule engines. Successes stay as they are. Warnings and
failures that the selection does not keep are dropped. A kept failure that starts to block after
the effective time becomes a warning, behind those that were warnings before. If nothing at all is
left in any group, there is nothing to go by.

Key definitions: `RuleResult.effectiveAt`, `Classifier`, `Classifier.classifyGroup`,
`Classifier.classify?`.
-/
import ImagePolicy.Rule.Selection

namespace ImagePolicy

/-- Whether a failure blocks at an instant; without a usable date it always does. -/
def RuleResult.effectiveAt (r : RuleResult) (moment : Instant) : Bool :=
  match r.effectiveOn with
  | .on instant => instant ≤ moment
  | _ => true

/-- A selection and the instant at which failures are judged. -/
structure Classifier where
  selection : RuleSelection
  instant : Instant

namespace Classifier

/-- The classifier of a context. -/
def ofContext (c : PolicyContext) : Classifier :=
  ⟨.ofContext c, c.instant⟩

/-- The group with the results that stay, each where it belongs. -/
def classifyGroup (c : Classifier) (g : CheckGroup) : CheckGroup :=
  let kept := g.failures.filter c.selection.keeps
  { g with
    warnings :=
      g.warnings.filter c.selection.keeps ++ kept.filter fun r => !r.effectiveAt c.instant
    failures := kept.filter fun r => r.effectiveAt c.instant }

/-- The results in all groups. -/
def total (gs : List CheckGroup) : Nat :=
  gs.foldl (fun n g => n + g.total) 0

/-- The groups, each classified; none if no result is left in any of them. -/
def classify? (c : Classifier) (gs : List CheckGroup) : Option (List CheckGroup) :=
  let classified := gs.map c.classifyGroup
  if total classified = 0 then none else some classified

end Classifier
end ImagePolicy
