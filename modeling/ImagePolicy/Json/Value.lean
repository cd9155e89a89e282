/-
# JSON values

A JSON value. The members of an object that was read are in ascending order of their keys and no key
occurs twice; `Json.Ordered` says so of a value and everything in it. An object that the library
writes itself may list its members in an order of its own.

Key definitions: `Json.Value`, `Json.Value.get?`, `Json.Value.ordered`, `Json.insert`.
-/
import ImagePolicy.Json.Number

namespace ImagePolicy
namespace Json

/-- A JSON value. -/
inductive Value where
  | null
  | bool (value : Bool)
  | number (value : Number)
  | text (value : String)
  | list (items : List Value)
  | object (members : List (String × Value))
  deriving Inhabited

/-- The members of an object. -/
abbrev Members := List (String × Value)

/-- Adds a member in key order; a member of the same key gives way. -/
def insert (key : String) (value : Value) : Members → Members
  | [] => [(key, value)]
  | (k, v) :: ms =>
    if key < k then (key, value) :: (k, v) :: ms
    else if key = k then (key, value) :: ms
    else (k, v) :: insert key value ms

/-- The members of a list in key order; of several with one key the last stays. -/
def collect (ms : Members) : Members :=
  ms.foldl (fun sorted m => insert m.1 m.2 sorted) []

namespace Value

/-- An integer. -/
def ofInt (n : Int) : Value := .number (.integer n)

/-- A list of strings. -/
def ofStrings (ss : List String) : Value := .list (ss.map .text)

/-- The member of an object with a key. -/
def get? (key : String) : Value → Option Value
  | .object ms => ms.lookup key
  | _ => none

/-- The value at the end of a path of keys through objects. -/
def at? : List String → Value → Option Value
  | [], v => some v
  | key :: keys, v => (v.get? key).bind (at? keys)

/-- The string, if the value is one. -/
def string? : Value → Option String
  | .text s => some s
  | _ => none

/-- The items, if the value is a list. -/
def items? : Value → Option (List Value)
  | .list items => some items
  | _ => none

/-- The members, if the value is an object. -/
def members? : Value → Option Members
  | .object ms => some ms
  | _ => none

/-- Whether the value is a string. -/
def isText (v : Value) : Bool := v.string?.isSome

/-- Whether the value is an object. -/
def isObject (v : Value) : Bool := v.members?.isSome

mutual

/-- The value with the members of every object in key order. -/
def ordered : Value → Value
  | .list items => .list (orderedItems items)
  | .object ms => .object (collect (orderedMembers ms))
  | v => v

/-- The items with the members of every object in key order. -/
def orderedItems : List Value → List Value
  | [] => []
  | v :: vs => ordered v :: orderedItems vs

/-- The members, where they stand, with the members of every object in them in key order. -/
def orderedMembers : Members → Members
  | [] => []
  | (k, v) :: ms => (k, ordered v) :: orderedMembers ms

end

end Value

/-- Keys strictly ascend. -/
def Ascending (ms : Members) : Prop :=
  (ms.map Prod.fst).Pairwise (· < ·)

mutual

/-- The members of every object are in strictly ascending key order. -/
def Ordered : Value → Prop
  | .list items => OrderedItems items
  | .object ms => Ascending ms ∧ OrderedMembers ms
  | _ => True

/-- Every item is ordered. -/
def OrderedItems : List Value → Prop
  | [] => True
  | v :: vs => Ordered v ∧ OrderedItems vs

/-- Every member's value is ordered. -/
def OrderedMembers : Members → Prop
  | [] => True
  | (_, v) :: ms => Ordered v ∧ OrderedMembers ms

end

end Json
end ImagePolicy
