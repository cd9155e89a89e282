/-
# The configuration that rules see

The part of a context that rules read as data: its lists and the effective time in nanoseconds. An
instant whose nanoseconds do not fit 64 bits stands as the greatest number that does, whichever
side it is on.

Key definitions: `RuleConfig`, `RuleConfig.ofContext`, `RuleConfig.document`.
-/
import ImagePolicy.Policy.Context
import ImagePolicy.Json.Printer

namespace ImagePolicy

open Json (Value)

/-- The configuration that rules see. -/
structure RuleConfig where
  nonBlocking : List String
  excluded : List String
  included : List String
  collections : List String
  whenNs : Int
  deriving DecidableEq, Repr

namespace RuleConfig

/-- The greatest signed 64-bit integer. -/
def greatestWhen : Int := 9223372036854775807

/-- The configuration of a context. -/
def ofContext (c : PolicyContext) : RuleConfig :=
  ⟨c.nonBlocking, c.excluded, c.included, c.collections, c.instant.nanoseconds?.getD greatestWhen⟩

/-- The fields in the order they are written. -/
def fields : List String := ["non_blocking_checks", "exclude", "include", "collections", "when_ns"]

/-- The value of a configuration, empty lists left out. -/
def encode (c : RuleConfig) : Value :=
  Row.encode fields
    [Field.writeList .text c.nonBlocking, Field.writeList .text c.excluded,
      Field.writeList .text c.included, Field.writeList .text c.collections,
      some (.ofInt c.whenNs)]

/-- The document that rules read it from. -/
def document (c : RuleConfig) : Value :=
  .object [("config", .object [("policy", c.encode)])]

/-- The text of the document. -/
def text (c : RuleConfig) : List Char :=
  Json.renderIndented c.document

end RuleConfig
end ImagePolicy
