/-
# Strings that are read back

A string is written with its quote, its backslash and its controls escaped, so the reader finds the
closing quote where it was put, and each escape gives the character it was written for
(`Json.readText_renderText`).

Key theorem: `Json.readText_renderText`.
-/
import ImagePolicy.Json.Printer
import ImagePolicy.Json.Reader
import ImagePolicy.Proofs.Text.Digits

namespace ImagePolicy
namespace Json

theorem hexDigit?_hexChar : ∀ d, d < 16 → Text.hexDigit? (Text.hexChar d) = some d := by
  decide

/-- The escape of a control is read as that control. -/
theorem hex4?_control {n : Nat} (h : n < 0x20) :
    hex4? '0' '0' (Text.hexChar (n / 16)) (Text.hexChar (n % 16)) = some n := by
  have hzero : Text.hexDigit? '0' = some 0 := rfl
  have hhigh : Text.hexDigit? (Text.hexChar (n / 16)) = some (n / 16) :=
    hexDigit?_hexChar _ (by omega)
  have hlow : Text.hexDigit? (Text.hexChar (n % 16)) = some (n % 16) :=
    hexDigit?_hexChar _ (by omega)
  simp only [hex4?, hzero, hhigh, hlow, Option.some.injEq]
  omega

/-- The characters with an escape of their own. -/
def escaped : List Char := ['"', '\\', '\n', '\r', '\t', '\x08', '\x0c']

theorem renderChar_of_not_escaped {c : Char} (h : c ∉ escaped) : renderChar c =
    if c.toNat < 0x20 then
      ['\\', 'u', '0', '0', Text.hexChar (c.toNat / 16), Text.hexChar (c.toNat % 16)]
    else [c] := by
  simp only [escaped, List.mem_cons, List.not_mem_nil, or_false, not_or] at h
  simp only [renderChar, h, ↓reduceIte]

/-- A character of a string is read as it is written. -/
theorem readPieces_renderChar (c : Char) (pieces : List Piece) (s : Source) :
    readPieces pieces ((renderChar c).map some ++ s) = readPieces (.char c :: pieces) s := by
  by_cases hescaped : c ∈ escaped
  · simp only [escaped, List.mem_cons, List.not_mem_nil, or_false] at hescaped
    rcases hescaped with rfl | rfl | rfl | rfl | rfl | rfl | rfl <;> rfl
  · rw [renderChar_of_not_escaped hescaped]
    by_cases hcontrol : c.toNat < 0x20
    · have hunit : Piece.ofUnit c.toNat = .char c := by
        rw [Piece.ofUnit, if_neg (by omega), Char.ofNat_toNat]
      simp only [if_pos hcontrol, List.map_cons, List.map_nil, List.cons_append, List.nil_append]
      rw [readPieces, hex4?_control hcontrol]
      simp only [hunit]
    · simp only [escaped, List.mem_cons, not_or] at hescaped
      simp only [if_neg hcontrol, List.map_cons, List.map_nil, List.cons_append, List.nil_append]
      rw [readPieces.eq_def]
      split <;> simp_all

theorem readPieces_renderText (cs : List Char) (pieces : List Piece) (rest : Source) :
    readPieces pieces ((cs.flatMap renderChar).map some ++ some '"' :: rest) =
      some (pieces.reverse ++ cs.map .char, rest) := by
  induction cs generalizing pieces with
  | nil => simp [readPieces]
  | cons c cs ih =>
    rw [List.flatMap_cons, List.map_append, List.append_assoc, readPieces_renderChar, ih]
    simp

theorem joinPieces_chars (joined cs : List Char) :
    joinPieces joined (cs.map .char) = some (joined.reverse ++ cs) := by
  induction cs generalizing joined with
  | nil => simp [joinPieces]
  | cons c cs ih =>
    rw [List.map_cons, joinPieces, ih]
    simp

/-- **A string is read back** from what follows its opening quote. -/
theorem readText_renderText (text : String) (rest : Source) :
    readText ((text.toList.flatMap renderChar).map some ++ some '"' :: rest) =
      some (some text, rest) := by
  rw [readText, readPieces_renderText]
  simp only [List.reverse_nil, List.nil_append, joinPieces_chars, Option.map_some,
    String.ofList_toList]

end Json
end ImagePolicy
