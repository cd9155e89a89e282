/-
# Cuts between characters

A text is held as bytes, and a place in it is an offset into them. A text is cut at an offset only
between two characters: a cut inside one has no result (`Utf8.cutAt?`). To look for an ASCII
character is to look for its one byte, because that byte is part of no other character
(`Utf8.mem_encode_iff`). So an offset that is found in this way, and the offset behind it, are
between characters (`Utf8.around?_encode`).

Key definitions: `Utf8.isBoundary`, `Utf8.cutAt?`, `Utf8.around?`, `Utf8.firstOffset?`,
`Utf8.lastOffset?`.
Key theorems: `Utf8.mem_encode_iff`, `Utf8.cutAt?_encode`, `Utf8.around?_encode`,
`Utf8.firstOffset?_encode`, `Utf8.lastOffset?_encode`.
-/
import ImagePolicy.Proofs.Text.Cuts
import ImagePolicy.Proofs.Text.Encoding

namespace ImagePolicy
namespace Utf8

variable {c : Char} {cs front back : List Char}

/-! ### Offsets -/

/-- Whether a byte goes on with a character. -/
def isContinuation (b : UInt8) : Bool :=
  0x80 ≤ b.toNat && b.toNat < 0xC0

/-- Whether an offset is at an end of the bytes or at the first byte of a character. -/
def isBoundary (bs : Bytes) (offset : Nat) : Bool :=
  offset == 0 || offset == bs.length || bs[offset]?.any fun b => !isContinuation b

/-- The bytes before an offset and those from it on, if it is between characters. -/
def cutAt? (bs : Bytes) (offset : Nat) : Option (Bytes × Bytes) :=
  if isBoundary bs offset then some (bs.take offset, bs.drop offset) else none

/-- The bytes before an offset and those behind the byte at it, if both cuts are between
characters. -/
def around? (bs : Bytes) (offset : Nat) : Option (Bytes × Bytes) := do
  let (before, _) ← cutAt? bs offset
  let (_, after) ← cutAt? bs (offset + 1)
  some (before, after)

/-- The byte of an ASCII character. -/
def asciiByte (c : Char) : UInt8 :=
  c.toNat.toUInt8

/-- The offset of the first byte of an ASCII character. -/
def firstOffset? (c : Char) (bs : Bytes) : Option Nat :=
  bs.idxOf? (asciiByte c)

/-- The offset of the last one. -/
def lastOffset? (c : Char) (bs : Bytes) : Option Nat :=
  (bs.reverse.idxOf? (asciiByte c)).map (bs.length - 1 - ·)

/-! ### The bytes of a character -/

theorem encodeChar_ascii (h : c.toNat < 0x80) : encodeChar c = [asciiByte c] := by
  unfold encodeChar
  exact if_pos h

theorem toNat_asciiByte (h : c.toNat < 0x80) : (asciiByte c).toNat = c.toNat :=
  toNat_toUInt8 (by omega)

/-- No byte of a longer character is an ASCII one, and its first byte starts it. -/
theorem encodeChar_long (h : 0x80 ≤ c.toNat) :
    ∃ b bs, encodeChar c = b :: bs ∧ 0xC0 ≤ b.toNat ∧ ∀ x ∈ bs, 0x80 ≤ x.toNat := by
  have hvalid : c.toNat < 0xD800 ∨ 0xDFFF < c.toNat ∧ c.toNat < 0x110000 := c.valid
  unfold encodeChar
  generalize c.toNat = n at h hvalid
  have hmore : ∀ m, 0x80 ≤ (0x80 + m % 64).toUInt8.toNat := by
    intro m
    rw [toNat_toUInt8 (by omega)]
    omega
  simp only [if_neg (Nat.not_lt.mpr h)]
  split
  · refine ⟨_, _, rfl, ?_, by simpa using hmore n⟩
    rw [toNat_toUInt8 (by omega)]
    omega
  · split
    · refine ⟨_, _, rfl, ?_, by simpa using ⟨hmore (n / 64), hmore n⟩⟩
      rw [toNat_toUInt8 (by omega)]
      omega
    · refine ⟨_, _, rfl, ?_, by simpa using ⟨hmore (n / 4096), hmore (n / 64), hmore n⟩⟩
      rw [toNat_toUInt8 (by omega)]
      omega

/-- The first byte of a character starts it. -/
theorem encodeChar_head (c : Char) :
    ∃ b bs, encodeChar c = b :: bs ∧ isContinuation b = false := by
  rcases Nat.lt_or_ge c.toNat 0x80 with h | h
  · refine ⟨_, _, encodeChar_ascii h, ?_⟩
    simp only [isContinuation, toNat_asciiByte h]
    simp
    omega
  · obtain ⟨b, bs, hbytes, hb, -⟩ := encodeChar_long h
    refine ⟨b, bs, hbytes, ?_⟩
    simp only [isContinuation]
    simp
    omega

theorem encode_append (front back : List Char) :
    encode (front ++ back) = encode front ++ encode back :=
  List.flatMap_append

theorem encode_cons (c : Char) (cs : List Char) : encode (c :: cs) = encodeChar c ++ encode cs :=
  rfl

/-- **The byte of an ASCII character stands for that character and is part of no other.** -/
theorem mem_encode_iff (h : c.toNat < 0x80) : asciiByte c ∈ encode cs ↔ c ∈ cs := by
  have hone : ∀ x : Char, asciiByte c ∈ encodeChar x ↔ x = c := by
    intro x
    rcases Nat.lt_or_ge x.toNat 0x80 with hx | hx
    · rw [encodeChar_ascii hx, List.mem_singleton, ← UInt8.toNat_inj, toNat_asciiByte h,
        toNat_asciiByte hx, eq_comm]
      exact Char.toNat_inj
    · obtain ⟨b, bs, hbytes, hb, hbs⟩ := encodeChar_long hx
      refine iff_of_false (fun hmem => ?_) (fun heq => ?_)
      have hascii := toNat_asciiByte h
      · rw [hbytes, List.mem_cons] at hmem
        rcases hmem with heq | hmem
        · rw [heq] at hascii
          omega
        · have := hbs _ hmem
          omega
      · rw [heq] at hx
        omega
  simp only [encode, List.mem_flatMap, hone, exists_eq_right]

/-- ASCII text takes a byte for each character. -/
theorem length_of_ascii (h : ∀ c ∈ cs, c.toNat < 0x80) : length cs = cs.length := by
  induction cs with
  | nil => rfl
  | cons c cs ih =>
    obtain ⟨hc, hcs⟩ := List.forall_mem_cons.mp h
    have hrest : (encode cs).length = cs.length := ih hcs
    simp [length, encode_cons, encodeChar_ascii hc, hrest]

/-! ### Cuts -/

/-- Where a text is put together it is at a boundary. -/
theorem isBoundary_encode (front back : List Char) :
    isBoundary (encode (front ++ back)) (length front) = true := by
  have hlength : length front = (encode front).length := rfl
  rw [encode_append, hlength]
  cases back with
  | nil => simp [isBoundary, encode]
  | cons c back =>
    obtain ⟨b, bs, hbytes, hstart⟩ := encodeChar_head c
    simp [isBoundary, encode_cons, hbytes, hstart]

/-- **A text is cut where it was put together.** -/
theorem cutAt?_encode (front back : List Char) :
    cutAt? (encode (front ++ back)) (length front) = some (encode front, encode back) := by
  have hlength : length front = (encode front).length := rfl
  rw [cutAt?, if_pos (isBoundary_encode front back), encode_append, hlength, List.take_left,
    List.drop_left]

/-- An ASCII character is cut out between the characters around it. -/
theorem around?_encode (h : c.toNat < 0x80) (front back : List Char) :
    around? (encode (front ++ c :: back)) (length front) = some (encode front, encode back) := by
  have hnext : length front + 1 = length (front ++ [c]) := by
    simp [length, encode, encodeChar_ascii h]
  have hcut : cutAt? (encode (front ++ c :: back)) (length front + 1) =
      some (encode (front ++ [c]), encode back) := by
    rw [hnext, List.append_cons]
    exact cutAt?_encode _ _
  rw [around?, cutAt?_encode, hcut]
  rfl

/-! ### Looking for a character -/

theorem idxOf?_append {b : UInt8} {front : Bytes} (h : b ∉ front) (back : Bytes) :
    (front ++ b :: back).idxOf? b = some front.length := by
  induction front with
  | nil => simp [List.idxOf?_cons]
  | cons x front ih =>
    rw [List.mem_cons, not_or] at h
    rw [List.cons_append, List.idxOf?_cons, if_neg (by simpa using Ne.symm h.1), ih h.2]
    rfl

/-- The first byte of a character is where the text is cut at the character first. -/
theorem firstOffset?_encode (h : c.toNat < 0x80) (cs : List Char) :
    firstOffset? c (encode cs) = (Text.splitFirst c cs).map fun cut => length cut.1 := by
  unfold firstOffset?
  cases hcut : Text.splitFirst c cs with
  | none =>
    rw [List.idxOf?_eq_none_iff.mpr]
    · rfl
    · rw [mem_encode_iff h]
      exact Text.splitFirst_eq_none_iff.mp hcut
  | some cut =>
    obtain ⟨front, back⟩ := cut
    obtain ⟨rfl, hfront⟩ := Text.splitFirst_eq_some_iff.mp hcut
    rw [encode_append, encode_cons, encodeChar_ascii h]
    exact idxOf?_append (by rwa [mem_encode_iff h]) _

/-- The last byte of a character is where the text is cut at the character last. -/
theorem lastOffset?_encode (h : c.toNat < 0x80) (cs : List Char) :
    lastOffset? c (encode cs) = (Text.splitLast c cs).map fun cut => length cut.1 := by
  unfold lastOffset?
  cases hcut : Text.splitLast c cs with
  | none =>
    rw [List.idxOf?_eq_none_iff.mpr]
    · rfl
    · rw [List.mem_reverse, mem_encode_iff h]
      exact Text.splitLast_eq_none_iff.mp hcut
  | some cut =>
    obtain ⟨front, back⟩ := cut
    obtain ⟨rfl, hback⟩ := Text.splitLast_eq_some_iff.mp hcut
    have hbytes : encode (front ++ c :: back) = encode front ++ asciiByte c :: encode back := by
      rw [encode_append, encode_cons, encodeChar_ascii h]
      rfl
    have hreverse : (encode front ++ asciiByte c :: encode back).reverse =
        (encode back).reverse ++ asciiByte c :: (encode front).reverse := by
      simp
    rw [hbytes, hreverse, idxOf?_append (by rwa [List.mem_reverse, mem_encode_iff h])]
    simp only [Option.map_some, List.length_reverse, List.length_append, List.length_cons, length]
    congr 1
    omega

end Utf8
end ImagePolicy
