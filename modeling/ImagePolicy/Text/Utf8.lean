/-
# UTF-8

Characters as bytes and bytes as characters. Decoding reads any bytes: where they do not spell a
character it gives `none` once for each longest run of bytes that starts a character without
finishing it, and once for each byte that cannot start one. Text that has to be UTF-8 is then a
decoding without `none`, and the forgiving reading puts the replacement character for each.

Key definitions: `Utf8.encode`, `Utf8.decode`, `Utf8.text?`, `Utf8.lossy`, `Utf8.length`.
-/

namespace ImagePolicy

/-- What a file or a stream holds. -/
abbrev Bytes := List UInt8

namespace Utf8

/-- The bytes of one character, from one to four. -/
def encodeChar (c : Char) : Bytes :=
  let n := c.toNat
  if n < 0x80 then [n.toUInt8]
  else if n < 0x800 then [(0xC0 + n / 64).toUInt8, (0x80 + n % 64).toUInt8]
  else if n < 0x10000 then
    [(0xE0 + n / 4096).toUInt8, (0x80 + n / 64 % 64).toUInt8, (0x80 + n % 64).toUInt8]
  else
    [(0xF0 + n / 262144).toUInt8, (0x80 + n / 4096 % 64).toUInt8,
      (0x80 + n / 64 % 64).toUInt8, (0x80 + n % 64).toUInt8]

/-- The bytes of a text. -/
def encode (cs : List Char) : Bytes :=
  cs.flatMap encodeChar

/-- The bytes of a string. -/
def ofString (s : String) : Bytes :=
  encode s.toList

/-- How many bytes a text takes. -/
def length (cs : List Char) : Nat :=
  (encode cs).length

/-- A character begun and not finished: how many bytes it still lacks, the bits read so far, and the
range of its next byte. -/
structure Begun where
  lacking : Nat
  bits : Nat
  low : Nat
  high : Nat

/-- What a first byte says: a whole character, a character begun, or nothing. -/
inductive Lead where
  | whole (c : Char)
  | begun (b : Begun)
  | stray

/-- The reading of a first byte. The second byte's range keeps out overlong forms, surrogates and
what lies beyond the last code point. -/
def lead (b : Nat) : Lead :=
  if b < 0x80 then .whole (Char.ofNat b)
  else if b < 0xC2 then .stray
  else if b < 0xE0 then .begun ⟨1, b - 0xC0, 0x80, 0xBF⟩
  else if b = 0xE0 then .begun ⟨2, 0, 0xA0, 0xBF⟩
  else if b = 0xED then .begun ⟨2, 13, 0x80, 0x9F⟩
  else if b < 0xF0 then .begun ⟨2, b - 0xE0, 0x80, 0xBF⟩
  else if b = 0xF0 then .begun ⟨3, 0, 0x90, 0xBF⟩
  else if b < 0xF4 then .begun ⟨3, b - 0xF0, 0x80, 0xBF⟩
  else if b = 0xF4 then .begun ⟨3, 4, 0x80, 0x8F⟩
  else .stray

/-- Decoding with what was read so far, newest first, and the character under way. -/
def decodeFrom (read : List (Option Char)) : Option Begun → Bytes → List (Option Char)
  | none, [] => read.reverse
  | some _, [] => (none :: read).reverse
  | none, b :: bs =>
    match lead b.toNat with
    | .whole c => decodeFrom (some c :: read) none bs
    | .begun p => decodeFrom read (some p) bs
    | .stray => decodeFrom (none :: read) none bs
  | some p, b :: bs =>
    let n := b.toNat
    if p.low ≤ n ∧ n ≤ p.high then
      let bits := p.bits * 64 + (n - 0x80)
      if p.lacking = 1 then decodeFrom (some (Char.ofNat bits) :: read) none bs
      else decodeFrom read (some ⟨p.lacking - 1, bits, 0x80, 0xBF⟩) bs
    else
      match lead n with
      | .whole c => decodeFrom (some c :: none :: read) none bs
      | .begun q => decodeFrom (none :: read) (some q) bs
      | .stray => decodeFrom (none :: none :: read) none bs

/-- The characters that bytes spell, `none` where they spell none. -/
def decode (bs : Bytes) : List (Option Char) :=
  decodeFrom [] none bs

/-- The text that bytes spell, if all of them do. -/
def text? (bs : Bytes) : Option (List Char) :=
  (decode bs).mapM id

/-- The text that bytes spell, with the replacement character where they spell none. -/
def lossy (bs : Bytes) : List Char :=
  (decode bs).map (Option.getD · '\uFFFD')

end Utf8
end ImagePolicy
