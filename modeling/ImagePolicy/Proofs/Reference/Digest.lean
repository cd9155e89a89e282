/-
# Resolving a reference by its digest

A digest is `sha256:` and 64 lower-case hexadecimal digits. A reference is resolved by such a text
and by no other, and then it is the same image with that digest and without a tag.

Key definitions: `IsDigest`, `ImageReference.pinned`.
Key theorems: `digestFault?_eq_none_iff`, `ImageReference.resolve_eq_ok_iff`,
`ImageReference.digestHex_pinned`.
-/
import ImagePolicy.Reference.Basic

namespace ImagePolicy

/-- A text is a digest with a hexadecimal part. -/
structure IsDigest (digest hex : String) : Prop where
  spelled : digest = "sha256:" ++ hex
  length : hex.length = 64
  digits : ∀ c ∈ hex.toList, ('0' ≤ c ∧ c ≤ '9') ∨ ('a' ≤ c ∧ c ≤ 'f')

theorem dropFront?_eq_some_iff {front cs rest : List Char} :
    dropFront? front cs = some rest ↔ cs = front ++ rest := by
  induction front generalizing cs with
  | nil => simp [dropFront?]
  | cons p ps ih =>
    cases cs with
    | nil => simp [dropFront?]
    | cons c cs =>
      unfold dropFront?
      by_cases h : p = c
      · simp [h, ih]
      · simp [h, Ne.symm h]

theorem dropFront?_of_isDigest {digest hex : String} (h : IsDigest digest hex) :
    dropFront? digestScheme digest.toList = some hex.toList := by
  rw [dropFront?_eq_some_iff, h.spelled]
  exact String.toList_append

/-- The texts without fault are the digests. -/
theorem digestFault?_eq_none_iff {digest : String} :
    digestFault? digest.toList = none ↔ ∃ hex, IsDigest digest hex := by
  have hscheme : ∀ hex : String, ("sha256:" ++ hex).toList = digestScheme ++ hex.toList :=
    fun _ => String.toList_append
  have hhex : ∀ hex : List Char, hex.all isHexDigit ↔
      ∀ c ∈ hex, ('0' ≤ c ∧ c ≤ '9') ∨ ('a' ≤ c ∧ c ≤ 'f') := by
    simp [isHexDigit]
  unfold digestFault?
  constructor
  · intro h
    split at h
    · simp at h
    · next hex hd =>
      split at h
      · next hok =>
        refine ⟨String.ofList hex, ⟨?_, ?_, ?_⟩⟩
        · rw [← String.toList_inj, hscheme, String.toList_ofList]
          exact dropFront?_eq_some_iff.mp hd
        · rw [← String.length_toList, String.toList_ofList]
          exact hok.1
        · rw [String.toList_ofList]
          exact (hhex hex).mp hok.2
      · simp at h
  · rintro ⟨hex, ⟨rfl, hlen, hdigits⟩⟩
    rw [hscheme, dropFront?_eq_some_iff.mpr rfl]
    have hok : hex.toList.length = digestLength ∧ hex.toList.all isHexDigit :=
      ⟨by rw [String.length_toList]; exact hlen, (hhex _).mpr hdigits⟩
    simp only [if_pos hok]

namespace ImageReference

variable {r resolved : ImageReference} {digest hex : String}

/-- The image by a digest, whatever that looks like. -/
def pinned (r : ImageReference) (digest : String) : ImageReference :=
  { r with tag := none, digest := some digest }

/-- **A digest resolves a reference**, and nothing else does. -/
theorem resolve_eq_ok_iff :
    r.resolve digest = .ok resolved ↔
      (∃ hex, IsDigest digest hex) ∧ resolved = r.pinned digest := by
  rw [← digestFault?_eq_none_iff]
  unfold resolve
  cases digestFault? digest.toList with
  | none => simp [pinned, eq_comm]
  | some fault => simp

theorem digestHex_pinned (h : IsDigest digest hex) : (r.pinned digest).digestHex = some hex := by
  simp [digestHex, pinned, dropFront?_of_isDigest h]

end ImageReference
end ImagePolicy
