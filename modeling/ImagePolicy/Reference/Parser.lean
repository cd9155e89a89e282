/-
# Reading image references

A reference is read from its end: the digest after the first `@`, the tag after the last `:` of
the last path component, and what is left names registry and repository. The first component is
the registry if it looks like a host, that is if it holds a dot or a colon or is `localhost`;
otherwise the reference is to the default registry, where a single name stands for one of the
default namespace.

Faults are looked for in the same order: the digest, then the tag, then the repository.

Key definitions: `ImageReference.parse`.
-/
import ImagePolicy.Reference.Basic

namespace ImagePolicy

/-! ### Tags -/

/-- The bytes that a tag may have. -/
def maxTagLength : Nat := 128

/-- Whether a character may stand in a tag. -/
def isTagChar (c : Char) : Bool :=
  ('a' ≤ c && c ≤ 'z') || ('A' ≤ c && c ≤ 'Z') || ('0' ≤ c && c ≤ '9') ||
    c == '_' || c == '.' || c == '-'

/-- Whether a text starts with a dot or a hyphen. -/
def startsLow : List Char → Bool
  | c :: _ => c == '.' || c == '-'
  | [] => false

/-- What is wrong with a tag. -/
def tagFault? (tag : List Char) : Option ReferenceFault :=
  if tag = [] ∨ maxTagLength < Utf8.length tag then some .tagLength
  else if startsLow tag ∨ !tag.all isTagChar then some (.invalidTag (.ofList tag))
  else none

/-! ### Repositories -/

/-- Whether a character may stand in a component of a repository. -/
def isComponentChar (c : Char) : Bool :=
  ('a' ≤ c && c ≤ 'z') || ('0' ≤ c && c ≤ '9') || c == '.' || c == '_' || c == '-'

/-- Whether a text is a component of a repository. -/
def isComponent (cs : List Char) : Bool :=
  !cs.isEmpty && cs.all isComponentChar

/-- What is wrong with a repository. -/
def repositoryFault? (repository : List Char) : Option ReferenceFault :=
  if repository = [] then some .emptyRepository
  else
    ((Text.split '/' repository).find? fun c => !isComponent c).map fun c =>
      .invalidComponent (.ofList c)

/-! ### References -/

/-- Whether a first component names a registry. -/
def looksLikeHost (first : List Char) : Bool :=
  first.contains '.' || first.contains ':' || first = "localhost".toList

/-- Registry and repository of a name. -/
def placeOf (name : List Char) : String × List Char :=
  match Text.splitFirst '/' name with
  | some (first, rest) =>
    if looksLikeHost first then (.ofList first, rest) else (defaultRegistry, name)
  | none => (defaultRegistry, defaultNamespace.toList ++ '/' :: name)

/-- Takes the tag off a name, where the last component has one. -/
def splitTag (name : List Char) : List Char × Option (List Char) :=
  let (path, last) :=
    match Text.splitLast '/' name with
    | some (path, last) => (path ++ ['/'], last)
    | none => ([], name)
  match Text.splitLast ':' last with
  | some (last, tag) => (path ++ last, some tag)
  | none => (name, none)

/-- Takes the digest off a text, where it has one. -/
def splitDigest (cs : List Char) : List Char × Option (List Char) :=
  match Text.splitFirst '@' cs with
  | some (name, digest) => (name, some digest)
  | none => (cs, none)

namespace ImageReference

/-- The reference that a text without blanks around it spells. -/
def parseTrimmed (cs : List Char) : Except ReferenceFault ImageReference :=
  if cs = [] then .error .empty
  else
    let (name, digest) := splitDigest cs
    match digest.bind digestFault? with
    | some fault => .error fault
    | none =>
      let (name, tag) := splitTag name
      match tag.bind tagFault? with
      | some fault => .error fault
      | none =>
        let (registry, repository) := placeOf name
        match repositoryFault? repository with
        | some fault => .error fault
        | none => .ok ⟨registry, .ofList repository, tag.map .ofList, digest.map .ofList⟩

/-- The reference that a text spells, blanks around it aside. -/
def parse (s : String) : Except ReferenceFault ImageReference :=
  parseTrimmed (Text.trim s.toList)

end ImageReference
end ImagePolicy
