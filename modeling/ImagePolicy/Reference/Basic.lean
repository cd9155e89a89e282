/-
# Image references

An image is named by a registry, a repository in it, and optionally a tag and a digest. The
written form is `registry/repository[:tag][@sha256:hex]`; the digest alone identifies an image, so
a resolved reference has a digest and no tag.

Key definitions: `ImageReference`, `ImageReference.render`, `ImageReference.resolve`,
`ReferenceFault`, `digestFault?`.
-/
import ImagePolicy.Text.Split
import ImagePolicy.Text.Blank
import ImagePolicy.Text.Digits
import ImagePolicy.Text.Utf8

namespace ImagePolicy

/-- A container image reference. -/
structure ImageReference where
  registry : String
  repository : String
  tag : Option String
  digest : Option String
  deriving DecidableEq, Repr, Inhabited

/-- Why a text is no image reference. -/
inductive ReferenceFault where
  | empty
  | unsupportedDigest (digest : String)
  | malformedDigest (digest : String)
  | tagLength
  | invalidTag (tag : String)
  | emptyRepository
  | invalidComponent (component : String)
  deriving DecidableEq, Repr

/-- The wording of a fault. -/
def ReferenceFault.message : ReferenceFault → String
  | .empty => "empty reference"
  | .unsupportedDigest d => "unsupported digest `" ++ d ++ "`, expected sha256"
  | .malformedDigest d => "malformed sha256 digest `" ++ d ++ "`"
  | .tagLength => "tag must be 1-128 characters"
  | .invalidTag t => "invalid tag `" ++ t ++ "`"
  | .emptyRepository => "empty repository"
  | .invalidComponent c => "invalid repository component `" ++ c ++ "`"

/-- The registry of a reference that names none. -/
def defaultRegistry : String := "index.docker.io"

/-- The repository that single names of the default registry live in. -/
def defaultNamespace : String := "library"

/-! ### Digests -/

/-- What every digest begins with. -/
def digestScheme : List Char := "sha256:".toList

/-- The hexadecimal digits of a digest. -/
def digestLength : Nat := 64

/-- Whether a character is a lower-case hexadecimal digit. -/
def isHexDigit (c : Char) : Bool :=
  ('0' ≤ c && c ≤ '9') || ('a' ≤ c && c ≤ 'f')

/-- A text without what it has to begin with. -/
def dropFront? : List Char → List Char → Option (List Char)
  | [], cs => some cs
  | p :: ps, c :: cs => if p = c then dropFront? ps cs else none
  | _ :: _, [] => none

/-- What is wrong with a digest. -/
def digestFault? (digest : List Char) : Option ReferenceFault :=
  match dropFront? digestScheme digest with
  | none => some (.unsupportedDigest (.ofList digest))
  | some hex =>
    if hex.length = digestLength ∧ hex.all isHexDigit then none
    else some (.malformedDigest (.ofList digest))

/-! ### The written form -/

namespace ImageReference

/-- Registry and repository. -/
def name (r : ImageReference) : String :=
  r.registry ++ "/" ++ r.repository

/-- The written form of a reference. -/
def render (r : ImageReference) : String :=
  r.name ++ (match r.tag with | some t => ":" ++ t | none => "") ++
    (match r.digest with | some d => "@" ++ d | none => "")

/-- The hexadecimal part of the digest. -/
def digestHex (r : ImageReference) : Option String :=
  r.digest.bind fun d => (dropFront? digestScheme d.toList).map .ofList

/-- The same image by digest, without tag. -/
def resolve (r : ImageReference) (digest : String) : Except ReferenceFault ImageReference :=
  match digestFault? digest.toList with
  | some fault => .error fault
  | none => .ok { r with tag := none, digest := some digest }

/-- The text that a digest which does not resolve a reference is reported with. -/
def withDigest (r : ImageReference) (digest : String) : String :=
  r.name ++ "@" ++ digest

end ImageReference
end ImagePolicy
