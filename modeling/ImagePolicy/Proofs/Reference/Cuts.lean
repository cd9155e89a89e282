/-
# The cuts of a reference in its bytes

A reference is cut at marks, and the reader finds them as offsets into its bytes: the first at
sign, the last slash of what stands before it, the last colon behind that, and then the first
slash. The cuts that are made at such offsets are here on their own (`digestBytes?`, `tagBytes?`,
`firstBytes?`). Each has a result for every text, so none is inside a character, and the results
are the bytes of the parts that the reader goes on with (`cutWhole`).

Key definitions: `ImageReference.digestBytes?`, `ImageReference.tagBytes?`,
`ImageReference.firstBytes?`, `ImageReference.CutWhole`.
Key theorems: `ImageReference.tagBytes?_encode`, `ImageReference.cutWhole`.
-/
import ImagePolicy.Reference.Parser
import ImagePolicy.Proofs.Text.Boundaries

namespace ImagePolicy
namespace ImageReference

open Utf8

/-- The bytes of a text and of the part behind it. -/
def bytesOf (parts : List Char × Option (List Char)) : Bytes × Option Bytes :=
  (encode parts.1, parts.2.map encode)

/-- Takes the digest off the bytes of a text, behind the first at sign. -/
def digestBytes? (bs : Bytes) : Option (Bytes × Option Bytes) :=
  match firstOffset? '@' bs with
  | some i => (around? bs i).map fun (name, digest) => (name, some digest)
  | none => some (bs, none)

/-- The offset at which the last component of a name starts. -/
def lastStart (name : Bytes) : Nat :=
  match lastOffset? '/' name with
  | some i => i + 1
  | none => 0

/-- Takes the tag off the bytes of a name, behind the last colon of the last component. -/
def tagBytes? (name : Bytes) : Option (Bytes × Option Bytes) := do
  let start := lastStart name
  let (_, last) ← cutAt? name start
  match lastOffset? ':' last with
  | some i => (around? name (start + i)).map fun (path, tag) => (path, some tag)
  | none => some (name, none)

/-- Takes the first component off the bytes of a path. -/
def firstBytes? (path : Bytes) : Option (Option (Bytes × Bytes)) :=
  match firstOffset? '/' path with
  | some i => (around? path i).map some
  | none => some none

theorem digestBytes?_encode (cs : List Char) :
    digestBytes? (encode cs) = some (bytesOf (splitDigest cs)) := by
  unfold digestBytes? splitDigest
  rw [firstOffset?_encode (by decide)]
  cases hcut : Text.splitFirst '@' cs with
  | none => rfl
  | some cut =>
    obtain ⟨name, digest⟩ := cut
    rw [Text.splitFirst_eq_some hcut]
    simp only [Option.map_some, around?_encode (by decide : '@'.toNat < 0x80)]
    rfl

theorem firstBytes?_encode (cs : List Char) : firstBytes? (encode cs) =
    some ((Text.splitFirst '/' cs).map fun cut => (encode cut.1, encode cut.2)) := by
  unfold firstBytes?
  rw [firstOffset?_encode (by decide)]
  cases hcut : Text.splitFirst '/' cs with
  | none => rfl
  | some cut =>
    obtain ⟨first, rest⟩ := cut
    rw [Text.splitFirst_eq_some hcut]
    simp only [Option.map_some, around?_encode (by decide : '/'.toNat < 0x80)]

/-- A name ends in its last component, and there the tag is looked for. -/
theorem exists_lastComponent (name : List Char) : ∃ front last, name = front ++ last ∧
    lastStart (encode name) = length front ∧
    splitTag name = match Text.splitLast ':' last with
      | some (before, after) => (front ++ before, some after)
      | none => (name, none) := by
  unfold lastStart splitTag
  rw [lastOffset?_encode (by decide)]
  cases hcut : Text.splitLast '/' name with
  | none => exact ⟨[], name, rfl, rfl, rfl⟩
  | some cut =>
    obtain ⟨before, last⟩ := cut
    refine ⟨before ++ ['/'], last, ?_, ?_, rfl⟩
    · rw [Text.splitLast_eq_some hcut]
      simp
    · simp [length, encode, encodeChar_ascii (by decide : '/'.toNat < 0x80)]

theorem tagBytes?_encode (name : List Char) :
    tagBytes? (encode name) = some (bytesOf (splitTag name)) := by
  obtain ⟨front, last, rfl, hstart, htag⟩ := exists_lastComponent name
  rw [tagBytes?, htag, hstart, cutAt?_encode]
  simp only [bind, Option.bind_some, lastOffset?_encode (by decide : ':'.toNat < 0x80)]
  cases hcut : Text.splitLast ':' last with
  | none => rfl
  | some cut =>
    obtain ⟨before, after⟩ := cut
    have hoffset : length front + length before = length (front ++ before) := by
      simp [length, encode_append]
    rw [Text.splitLast_eq_some hcut]
    simp only [Option.map_some, hoffset]
    rw [← List.append_assoc, around?_encode (by decide)]
    rfl

/-- The cuts by which a text is read, made in its bytes: each has a result, and so none is inside a
character, and the results are the bytes of the parts that are read. -/
structure CutWhole (cs : List Char) : Prop where
  digest : digestBytes? (encode cs) = some (bytesOf (splitDigest cs))
  tag : tagBytes? (encode (splitDigest cs).1) = some (bytesOf (splitTag (splitDigest cs).1))
  first : firstBytes? (encode (splitTag (splitDigest cs).1).1) =
    some ((Text.splitFirst '/' (splitTag (splitDigest cs).1).1).map fun cut =>
      (encode cut.1, encode cut.2))

/-- **No cut is inside a character.** -/
theorem cutWhole (cs : List Char) : CutWhole cs where
  digest := digestBytes?_encode cs
  tag := tagBytes?_encode _
  first := firstBytes?_encode _

end ImageReference
end ImagePolicy
