/-
# Records in JSON

A record is written as an object of its fields, or as a list of their values in the order the
fields are declared. Both forms say the same: a row, which holds for each declared field the tree
it is given, if it is given one. In the object form members of other names are skipped and the
order is free, but a declared name may not occur twice and no name may be without content. In the
list form the last fields may be missing, and there may be no item too many.

Key definitions: `Row`, `Row.ofMembers?`, `Row.ofItems?`, `Row.ofTree?`, `Row.encode`.
-/
import ImagePolicy.Json.Reader

namespace ImagePolicy

open Json (Tree Value)

/-- What a text gives for each declared field of a record. -/
abbrev Row := List (Option Tree)

/-- The members of an object as a text writes them. -/
abbrev Written := List (Option String × Tree)

namespace Row

/-- The values given under a name. -/
def given (name : String) (ms : Written) : List Tree :=
  ms.filterMap fun (key, tree) => if key = some name then some tree else none

/-- The only value given under a name, or none; more than one is a fault. -/
def single? (name : String) (ms : Written) : Option (Option Tree) :=
  match given name ms with
  | [] => some none
  | [tree] => some (some tree)
  | _ => none

/-- The row of an object. -/
def ofMembers? (names : List String) (ms : Written) : Option Row :=
  if ms.all fun (key, _) => key.isSome then names.mapM fun name => single? name ms else none

/-- The row of a list. -/
def ofItems? (names : List String) (items : List Tree) : Option Row :=
  if items.length ≤ names.length then
    some (items.map some ++ List.replicate (names.length - items.length) none)
  else none

/-- The row of a tree, which is an object or a list. -/
def ofTree? (names : List String) : Tree → Option Row
  | .object ms => ofMembers? names ms
  | .list items => ofItems? names items
  | _ => none

/-- The object of the fields that have a value, in the order they are declared. -/
def encode (names : List String) (values : List (Option Value)) : Value :=
  .object ((names.zip values).filterMap fun (name, value) => value.map fun v => (name, v))

end Row

/-! ### Fields -/

namespace Field

/-- A field that has to be given. -/
def required? {α : Type} (read : Tree → Option α) : Option Tree → Option α
  | some tree => read tree
  | none => none

/-- A field that has a value when it is not given. -/
def defaulted? {α : Type} (read : Tree → Option α) (default : α) : Option Tree → Option α
  | some tree => read tree
  | none => some default

/-- A field that may be given as null and then has no value. -/
def optional? {α : Type} (read : Tree → Option α) : Option Tree → Option (Option α)
  | some .null => some none
  | some tree => (read tree).map some
  | none => some none

/-- A string. -/
def string? : Tree → Option String
  | .text content => content
  | _ => none

/-- A list. -/
def list? {α : Type} (read : Tree → Option α) : Tree → Option (List α)
  | .list items => items.mapM read
  | _ => none

/-- The members of an object that so many lists and objects enclose. -/
def members? (above : Nat) : Tree → Option Json.Members
  | .object ms => (Tree.members? (Json.maxNesting - above - 1) ms).map Json.collect
  | _ => none

/-- Any value, that so many lists and objects enclose. -/
def value? (above : Nat) (tree : Tree) : Option Value :=
  tree.value? (Json.maxNesting - above)

/-- A string that is left out when it is empty. -/
def writeString (s : String) : Option Value :=
  if s = "" then none else some (.text s)

/-- A list that is left out when it is empty. -/
def writeList {α : Type} (write : α → Value) (items : List α) : Option Value :=
  if items.isEmpty then none else some (.list (items.map write))

end Field
end ImagePolicy
