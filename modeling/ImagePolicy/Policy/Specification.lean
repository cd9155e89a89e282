/-
# Policy specifications

A policy as it is written down: the key that signatures are verified with, the transparency log,
which rule results count, the older list of exceptions, and where the rules come from. Key, log
and sources are passed on as they are.

A policy is referred to by a text: the empty text is the empty policy, a text with a brace is the
policy itself, and any other is the path of a file.

Key definitions: `PolicySpec`, `PolicySpec.parse`, `PolicySpec.fromFile`, `PolicySpec.load`,
`PolicyFault`.
-/
import ImagePolicy.Record.Row

namespace ImagePolicy

open Json (Tree Value)

/-- Which rule results count. -/
structure RuleLists where
  included : List String := []
  excluded : List String := []
  collections : List String := []
  deriving DecidableEq, Repr, Inhabited

/-- The older form of exclusion. -/
structure Exceptions where
  nonBlocking : List String := []
  deriving DecidableEq, Repr, Inhabited

/-- A policy as it is written down. -/
structure PolicySpec where
  publicKey : String := ""
  rekorUrl : String := ""
  configuration : Option RuleLists := none
  exceptions : Option Exceptions := none
  sources : List Value := []
  deriving Inhabited

/-- Why a policy cannot be used. -/
inductive PolicyFault where
  | malformed
  | unreadable (reference : String)
  | noPublicKey
  deriving DecidableEq, Repr

/-- The wording of a fault. -/
def PolicyFault.message : PolicyFault → String
  | .malformed => "unable to parse policy"
  | .unreadable reference => "unable to read policy file `" ++ reference ++ "`"
  | .noPublicKey => "policy must provide a public key"

/-- A list of strings, empty when it is not given. -/
def stringsField? : Option Tree → Option (List String) :=
  Field.defaulted? (Field.list? Field.string?) []

namespace RuleLists

/-- The declared fields. -/
def fields : List String := ["include", "exclude", "collections"]

/-- The lists of a tree. -/
def ofTree? (tree : Tree) : Option RuleLists :=
  match Row.ofTree? fields tree with
  | some [included, excluded, collections] =>
    match stringsField? included, stringsField? excluded, stringsField? collections with
    | some included, some excluded, some collections => some ⟨included, excluded, collections⟩
    | _, _, _ => none
  | _ => none

/-- The value of the lists, which are written even when they are empty. -/
def encode (l : RuleLists) : Value :=
  Row.encode fields
    [some (.ofStrings l.included), some (.ofStrings l.excluded), some (.ofStrings l.collections)]

end RuleLists

namespace Exceptions

/-- The declared fields. -/
def fields : List String := ["nonBlocking"]

/-- The exceptions of a tree. -/
def ofTree? (tree : Tree) : Option Exceptions :=
  match Row.ofTree? fields tree with
  | some [nonBlocking] => (stringsField? nonBlocking).map (⟨·⟩)
  | _ => none

/-- The value of the exceptions, which are written even when there are none. -/
def encode (e : Exceptions) : Value :=
  Row.encode fields [some (.ofStrings e.nonBlocking)]

end Exceptions

namespace PolicySpec

/-- The declared fields. -/
def fields : List String := ["publicKey", "rekorUrl", "configuration", "exceptions", "sources"]

/-- The policy of a tree. -/
def ofTree? (tree : Tree) : Option PolicySpec :=
  match Row.ofTree? fields tree with
  | some [publicKey, rekorUrl, configuration, exceptions, sources] =>
    match Field.defaulted? Field.string? "" publicKey, Field.defaulted? Field.string? "" rekorUrl,
      Field.optional? RuleLists.ofTree? configuration,
      Field.optional? Exceptions.ofTree? exceptions,
      Field.defaulted? (Field.list? (Field.value? 2)) [] sources with
    | some publicKey, some rekorUrl, some configuration, some exceptions, some sources =>
      some ⟨publicKey, rekorUrl, configuration, exceptions, sources⟩
    | _, _, _, _, _ => none
  | _ => none

/-- The value of a policy. -/
def encode (p : PolicySpec) : Value :=
  Row.encode fields
    [Field.writeString p.publicKey, Field.writeString p.rekorUrl,
      p.configuration.map RuleLists.encode, p.exceptions.map Exceptions.encode,
      Field.writeList id p.sources]

/-- The policy that a JSON text spells. -/
def parse (text : String) : Except PolicyFault PolicySpec :=
  match (Json.readString text).bind ofTree? with
  | some spec => .ok spec
  | none => .error .malformed

/-- The policy in a file; none if the file cannot be read. -/
def fromFile (readFile : String → Option String) (path : String) :
    Option (Except PolicyFault PolicySpec) :=
  (readFile path).map parse

/-- The policy that a reference stands for, when files are read by `readFile`. -/
def load (readFile : String → Option String) (reference : String) :
    Except PolicyFault PolicySpec :=
  if reference = "" then .ok {}
  else if reference.toList.contains '\x7b' then parse reference
  else (fromFile readFile reference).getD (.error (.unreadable reference))

end PolicySpec
end ImagePolicy
