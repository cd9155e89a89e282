/-
# Rule selection

Which results a policy keeps. A result is matched by a few texts that its code and term make: with
`p` and `r` the last two dotted segments of the code, `p`, `p.*` and `p.r`, the same three with
the term after a colon, and always the wildcard. It is kept if a matcher or one of its collections
is included and no matcher is excluded. A policy that includes nothing includes everything.

Key definitions: `RuleResult.matchers`, `RuleSelection`, `RuleSelection.ofContext`,
`RuleSelection.keeps`.
-/
import ImagePolicy.Rule.Result
import ImagePolicy.Policy.Context
import ImagePolicy.Text.Split

namespace ImagePolicy

/-- The matcher of every result. -/
def wildcard : String := "*"

/-- The last segment of a dotted code, and the one before it if there is one with characters. -/
def lastSegments (code : String) : Option String × String :=
  match (Text.split '.' code.toList).reverse with
  | rule :: package :: _ => (if package = [] then none else some (.ofList package), .ofList rule)
  | [rule] => (none, .ofList rule)
  | [] => (none, "")

/-- The matchers that a package and a rule make. -/
def packageMatchers (package rule : String) : List String :=
  [package, package ++ ".*", package ++ "." ++ rule]

namespace RuleResult

/-- The matchers of a result that its code makes. -/
def codeMatchers (r : RuleResult) : List String :=
  match lastSegments (r.code.getD "") with
  | (some package, rule) => packageMatchers package rule
  | (none, _) => []

/-- The matchers of a result that its code and its term make together. -/
def termMatchers (r : RuleResult) : List String :=
  match r.term with
  | some term => r.codeMatchers.map (· ++ ":" ++ term)
  | none => []

/-- The texts that match a result. -/
def matchers (r : RuleResult) : List String :=
  r.codeMatchers ++ r.termMatchers ++ [wildcard]

end RuleResult

/-- What a policy includes and excludes. -/
structure RuleSelection where
  included : List String
  excluded : List String
  collections : List String
  deriving DecidableEq, Repr

namespace RuleSelection

/-- The selection of a context; results that are not to block are excluded too. -/
def ofContext (c : PolicyContext) : RuleSelection where
  included := if c.included.isEmpty && c.collections.isEmpty then [wildcard] else c.included
  excluded := c.excluded ++ c.nonBlocking.filter fun m => !c.excluded.contains m
  collections := c.collections

/-- Whether one of the collections of a result is selected. -/
def selectsCollection (s : RuleSelection) (r : RuleResult) : Bool :=
  r.collections.any s.collections.contains

/-- Whether a result is included. -/
def includes (s : RuleSelection) (r : RuleResult) : Bool :=
  s.selectsCollection r || r.matchers.any s.included.contains

/-- Whether a result is excluded. -/
def excludes (s : RuleSelection) (r : RuleResult) : Bool :=
  r.matchers.any s.excluded.contains

/-- Whether a result is kept. -/
def keeps (s : RuleSelection) (r : RuleResult) : Bool :=
  s.includes r && !s.excludes r

end RuleSelection
end ImagePolicy
