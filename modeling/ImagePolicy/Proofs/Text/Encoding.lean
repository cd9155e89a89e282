/-
# Bytes that spell a text

What a text is encoded to is decoded to that text again (`Utf8.decode_encode`): the first byte of a
character says how many follow and what the second may be, and the bytes that are written are
within these bounds, since a character is no surrogate and no code point beyond the last.

Key theorems: `Utf8.decodeFrom_encodeChar`, `Utf8.decode_encode`.
-/
import ImagePolicy.Text.Utf8

namespace ImagePolicy
namespace Utf8

variable {read : List (Option Char)} {bs : Bytes}

theorem toNat_toUInt8 {n : Nat} (h : n < 256) : n.toUInt8.toNat = n :=
  Nat.mod_eq_of_lt h

/-- A byte in its range goes on with the character under way. -/
theorem decodeFrom_more {p : Begun} {n : Nat} (hn : n < 256) (hlow : p.low ≤ n) (hhigh : n ≤ p.high)
    (hlacking : p.lacking ≠ 1) : decodeFrom read (some p) (n.toUInt8 :: bs) =
      decodeFrom read (some ⟨p.lacking - 1, p.bits * 64 + (n - 0x80), 0x80, 0xBF⟩) bs := by
  rw [decodeFrom, toNat_toUInt8 hn]
  simp only [if_pos (And.intro hlow hhigh), if_neg hlacking]

/-- The last byte finishes the character under way. -/
theorem decodeFrom_last {p : Begun} {n : Nat} (hn : n < 256) (hlow : p.low ≤ n) (hhigh : n ≤ p.high)
    (hlacking : p.lacking = 1) : decodeFrom read (some p) (n.toUInt8 :: bs) =
      decodeFrom (some (Char.ofNat (p.bits * 64 + (n - 0x80))) :: read) none bs := by
  rw [decodeFrom, toNat_toUInt8 hn]
  simp only [if_pos (And.intro hlow hhigh), if_pos hlacking]

theorem decodeFrom_begun {n : Nat} {p : Begun} (hn : n < 256) (h : lead n = .begun p) :
    decodeFrom read none (n.toUInt8 :: bs) = decodeFrom read (some p) bs := by
  rw [decodeFrom, toNat_toUInt8 hn, h]

theorem lead_two {n : Nat} (hlow : 0xC2 ≤ n) (hhigh : n < 0xE0) :
    lead n = .begun ⟨1, n - 0xC0, 0x80, 0xBF⟩ := by
  unfold lead
  rw [if_neg (by omega), if_neg (by omega), if_pos hhigh]

/-- The first of three bytes keeps overlong forms and surrogates out of the second. -/
theorem lead_three {n : Nat} (hlow : 0xE0 ≤ n) (hhigh : n < 0xF0) : lead n = .begun
    ⟨2, n - 0xE0, if n = 0xE0 then 0xA0 else 0x80, if n = 0xED then 0x9F else 0xBF⟩ := by
  unfold lead
  rw [if_neg (by omega), if_neg (by omega), if_neg (by omega)]
  by_cases hE0 : n = 0xE0
  · subst hE0
    rfl
  · rw [if_neg hE0, if_neg hE0]
    by_cases hED : n = 0xED
    · subst hED
      rfl
    · rw [if_neg hED, if_neg hED, if_pos hhigh]

/-- The first of four bytes keeps overlong forms and what is beyond the last code point out of the
second. -/
theorem lead_four {n : Nat} (hlow : 0xF0 ≤ n) (hhigh : n ≤ 0xF4) : lead n = .begun
    ⟨3, n - 0xF0, if n = 0xF0 then 0x90 else 0x80, if n = 0xF4 then 0x8F else 0xBF⟩ := by
  unfold lead
  rw [if_neg (by omega), if_neg (by omega), if_neg (by omega), if_neg (by omega),
    if_neg (by omega), if_neg (by omega)]
  by_cases hF0 : n = 0xF0
  · subst hF0
    rfl
  · rw [if_neg hF0, if_neg hF0]
    by_cases hF4 : n = 0xF4
    · subst hF4
      rfl
    · have hbelow : n < 0xF4 := by omega
      rw [if_pos hbelow, if_neg hF4]

/-- **The bytes of a character are read as that character.** -/
theorem decodeFrom_encodeChar (c : Char) :
    decodeFrom read none (encodeChar c ++ bs) = decodeFrom (some c :: read) none bs := by
  have hvalid : c.toNat < 0xD800 ∨ 0xDFFF < c.toNat ∧ c.toNat < 0x110000 := c.valid
  have hc : Char.ofNat c.toNat = c := Char.ofNat_toNat c
  unfold encodeChar
  generalize c.toNat = n at hvalid hc
  simp only
  split
  · next h1 =>
    have hlead : lead n = .whole c := by rw [lead, if_pos h1, hc]
    rw [List.singleton_append, decodeFrom, toNat_toUInt8 (by omega), hlead]
  · split
    · next h1 h2 =>
      have hlead := lead_two (n := 0xC0 + n / 64) (by omega) (by omega)
      simp only [List.cons_append, List.nil_append]
      rw [decodeFrom_begun (by omega) hlead, decodeFrom_last (by omega) (by simp only; omega)
        (by simp only; omega) rfl]
      have hbits : (0xC0 + n / 64 - 0xC0) * 64 + (0x80 + n % 64 - 0x80) = n := by omega
      simp only [hbits, hc]
    · split
      · next h1 h2 h3 =>
        have hlead := lead_three (n := 0xE0 + n / 4096) (by omega) (by omega)
        simp only [List.cons_append, List.nil_append]
        rw [decodeFrom_begun (by omega) hlead,
          decodeFrom_more (by omega) (by simp only; split <;> omega) (by simp only; split <;> omega)
            (by simp),
          decodeFrom_last (by omega) (by simp only; omega) (by simp only; omega) rfl]
        have hbits : ((0xE0 + n / 4096 - 0xE0) * 64 + (0x80 + n / 64 % 64 - 0x80)) * 64 +
            (0x80 + n % 64 - 0x80) = n := by omega
        simp only [hbits, hc]
      · next h1 h2 h3 =>
        have hlead := lead_four (n := 0xF0 + n / 262144) (by omega) (by omega)
        simp only [List.cons_append, List.nil_append]
        rw [decodeFrom_begun (by omega) hlead,
          decodeFrom_more (by omega) (by simp only; split <;> omega) (by simp only; split <;> omega)
            (by simp),
          decodeFrom_more (by omega) (by simp only; omega) (by simp only; omega) (by simp),
          decodeFrom_last (by omega) (by simp only; omega) (by simp only; omega) rfl]
        have hbits : (((0xF0 + n / 262144 - 0xF0) * 64 + (0x80 + n / 4096 % 64 - 0x80)) * 64 +
            (0x80 + n / 64 % 64 - 0x80)) * 64 + (0x80 + n % 64 - 0x80) = n := by omega
        simp only [hbits, hc]

theorem decodeFrom_encode (cs : List Char) :
    decodeFrom read none (encode cs) = read.reverse ++ cs.map some := by
  induction cs generalizing read with
  | nil => simp [encode, decodeFrom]
  | cons c cs ih =>
    have hencode : encode (c :: cs) = encodeChar c ++ encode cs := rfl
    rw [hencode, decodeFrom_encodeChar, ih]
    simp

/-- **A text is read back from its bytes.** -/
theorem decode_encode (cs : List Char) : decode (encode cs) = cs.map some :=
  decodeFrom_encode cs

end Utf8
end ImagePolicy
