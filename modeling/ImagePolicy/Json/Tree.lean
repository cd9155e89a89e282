/-
# What a JSON text says

The tree of a JSON text before anyone decides what to keep of it: numbers and members stand as
they are written, and a string that has no characters, because it holds half a surrogate pair or
bytes that are not UTF-8, is there without content. What is skipped needs no more than to be a
tree. What is kept has to be a value: its strings have content, its numbers are in range, and it
is not nested deeper than a limit, counted from the top of the text.

Key definitions: `Json.Tree`, `Json.Tree.value?`, `Json.maxNesting`.
-/
import ImagePolicy.Json.Value

namespace ImagePolicy
namespace Json

/-- A JSON text as a tree. -/
inductive Tree where
  | null
  | bool (value : Bool)
  | number (literal : NumberLiteral)
  | text (content : Option String)
  | list (items : List Tree)
  | object (members : List (Option String × Tree))

/-- The lists and objects that may enclose one another in what is kept. -/
def maxNesting : Nat := 127

namespace Tree

mutual

/-- The value of a tree, when at most `levels` lists and objects may enclose one another in it. -/
def value? (levels : Nat) : Tree → Option Value
  | .null => some .null
  | .bool b => some (.bool b)
  | .number l => l.value?.map .number
  | .text content => content.map .text
  | .list items =>
    match levels with
    | 0 => none
    | n + 1 => (items? n items).map .list
  | .object ms =>
    match levels with
    | 0 => none
    | n + 1 => (members? n ms).map fun ms => .object (collect ms)

/-- The values of a list of trees. -/
def items? (levels : Nat) : List Tree → Option (List Value)
  | [] => some []
  | t :: ts =>
    match value? levels t, items? levels ts with
    | some v, some vs => some (v :: vs)
    | _, _ => none

/-- The values of members, in the order they are written. -/
def members? (levels : Nat) : List (Option String × Tree) → Option Members
  | [] => some []
  | (key, t) :: ts =>
    match key, value? levels t, members? levels ts with
    | some k, some v, some vs => some ((k, v) :: vs)
    | _, _, _ => none

end

end Tree
end Json
end ImagePolicy
