/-
# Rule results

What a rule engine reports: single results, each a message with free metadata, in groups that sort
them into successes, warnings and failures. Four keys of the metadata are a contract with the
engines: the dotted code of the rule, a term that qualifies it, the collections it belongs to, and
the date it starts to block. A key that holds a value of another kind reads as absent, except that
an unusable date is told apart from none.

Key definitions: `RuleResult`, `RuleResult.code`, `RuleResult.effectiveOn`, `CheckGroup`,
`CheckGroup.classified`.
-/
import ImagePolicy.Record.Row
import ImagePolicy.Json.Printer
import ImagePolicy.Time.EffectiveDate

namespace ImagePolicy

open Json (Tree Value)

/-- One result of a rule engine. -/
structure RuleResult where
  message : String
  metadata : Json.Members := []
  deriving Inhabited

/-- When a rule starts to block. -/
inductive EffectiveOn where
  | absent
  | invalid (text : String)
  | on (instant : Instant)
  deriving DecidableEq, Repr

namespace RuleResult

/-- The metadata under a key. -/
def get? (r : RuleResult) (key : String) : Option Value :=
  r.metadata.lookup key

/-- The metadata under a key, if it is a string with characters. -/
def filledString? (r : RuleResult) (key : String) : Option String :=
  match (r.get? key).bind Value.string? with
  | some s => if s = "" then none else some s
  | none => none

/-- The dotted code of the rule. -/
def code (r : RuleResult) : Option String :=
  r.filledString? "code"

/-- The term that qualifies the rule. -/
def term (r : RuleResult) : Option String :=
  r.filledString? "term"

/-- The collections that the rule belongs to; what is not a string is none. -/
def collections (r : RuleResult) : List String :=
  match (r.get? "collections").bind Value.items? with
  | some items => items.filterMap Value.string?
  | none => []

/-- The date that the rule starts to block. -/
def effectiveOn (r : RuleResult) : EffectiveOn :=
  match r.get? "effective_on" with
  | none => .absent
  | some (.text s) =>
    match EffectiveDate.parseString? s with
    | some instant => .on instant
    | none => .invalid s
  | some v => .invalid (.ofList (Json.render v))

/-- The declared fields. -/
def fields : List String := ["msg", "metadata"]

/-- The result of a tree that so many lists and objects enclose. -/
def ofTree? (above : Nat) (tree : Tree) : Option RuleResult :=
  match Row.ofTree? fields tree with
  | some [message, metadata] =>
    match Field.required? Field.string? message,
      Field.defaulted? (Field.members? (above + 1)) [] metadata with
    | some message, some metadata => some ⟨message, metadata⟩
    | _, _ => none
  | _ => none

/-- The value of a result. -/
def encode (r : RuleResult) : Value :=
  Row.encode fields
    [some (.text r.message), if r.metadata.isEmpty then none else some (.object r.metadata)]

end RuleResult

/-- How a result counts. -/
inductive Outcome where
  | success
  | warning
  | failure
  deriving DecidableEq, Repr

/-- The results of one evaluation of one input. -/
structure CheckGroup where
  filename : String := ""
  ruleNamespace : String := ""
  successes : List RuleResult := []
  warnings : List RuleResult := []
  failures : List RuleResult := []
  deriving Inhabited

namespace CheckGroup

/-- How many results there are. -/
def total (g : CheckGroup) : Nat :=
  g.successes.length + g.warnings.length + g.failures.length

/-- Every result with its outcome: successes, then warnings, then failures. -/
def classified (g : CheckGroup) : List (Outcome × RuleResult) :=
  g.successes.map (Outcome.success, ·) ++ g.warnings.map (Outcome.warning, ·) ++
    g.failures.map (Outcome.failure, ·)

/-- The declared fields. -/
def fields : List String := ["filename", "namespace", "successes", "warnings", "failures"]

/-- The group of a tree that so many lists and objects enclose. -/
def ofTree? (above : Nat) (tree : Tree) : Option CheckGroup :=
  match Row.ofTree? fields tree with
  | some [filename, ns, successes, warnings, failures] =>
    let results := Field.defaulted? (Field.list? (RuleResult.ofTree? (above + 2))) []
    match Field.defaulted? Field.string? "" filename, Field.defaulted? Field.string? "" ns,
      results successes, results warnings, results failures with
    | some filename, some ns, some successes, some warnings, some failures =>
      some ⟨filename, ns, successes, warnings, failures⟩
    | _, _, _, _, _ => none
  | _ => none

/-- The groups of a tree that is a list of them. -/
def listOfTree? (tree : Tree) : Option (List CheckGroup) :=
  Field.list? (ofTree? 1) tree

/-- The value of a group. -/
def encode (g : CheckGroup) : Value :=
  Row.encode fields
    [some (.text g.filename), some (.text g.ruleNamespace),
      Field.writeList RuleResult.encode g.successes,
      Field.writeList RuleResult.encode g.warnings,
      Field.writeList RuleResult.encode g.failures]

end CheckGroup
end ImagePolicy
