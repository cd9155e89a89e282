/-
# Text of bytes

Scripts and the streams between programs hold bytes. Here a byte is the character of its code, so
that a script's operators and a program's options can be compared with characters, and other bytes
are carried along unread.

Everything under `Shell` belongs to the programs that rule engines may be, and not to the library:
it is no part of what is verified, and no theorem speaks of it (see `Shell.host`).

Key definitions: `Shell.Octets`, `Shell.Octets.ofBytes`, `Shell.Octets.toBytes`,
`Shell.Octets.lines`.
-/
import ImagePolicy.Text.Utf8
import ImagePolicy.Text.Digits
import ImagePolicy.Text.Split

namespace ImagePolicy
namespace Shell

/-- A text in which every character stands for the byte of its code. -/
abbrev Octets := List Char

namespace Octets

/-- The text of bytes. -/
def ofBytes (bs : Bytes) : Octets :=
  bs.map fun b => Char.ofNat b.toNat

/-- The bytes of a text. -/
def toBytes (o : Octets) : Bytes :=
  o.map fun c => c.toNat.toUInt8

/-- The text of a string's bytes. -/
def ofString (s : String) : Octets :=
  ofBytes (Utf8.ofString s)

/-- The string that a text's bytes spell. -/
def toString (o : Octets) : String :=
  .ofList (Utf8.lossy (toBytes o))

/-- The text of a number. -/
def ofNat (n : Nat) : Octets :=
  Text.decimal n

/-- The number that a text of digits spells. -/
def toNat? (o : Octets) : Option Nat :=
  if o.isEmpty then none else (o.mapM Text.digit?).map Text.ofDigits

/-- The integer that a text spells. -/
def toInt? : Octets → Option Int
  | '-' :: o => (toNat? o).map fun n => -(n : Int)
  | '+' :: o => (toNat? o).map Int.ofNat
  | o => (toNat? o).map Int.ofNat

/-- The lines of a text; a line break at its end starts no line. -/
def lines (o : Octets) : List Octets :=
  let parts := Text.split '\n' o
  if parts.getLast? = some [] then parts.dropLast else parts

/-- Lines, each with a line break. -/
def unlines (ls : List Octets) : Octets :=
  ls.flatMap fun l => l ++ ['\n']

/-- Texts with another between them. -/
def join (sep : Octets) (os : List Octets) : Octets :=
  List.intercalate sep os

end Octets

/-- Whether a character is an ASCII letter, a digit or an underscore. -/
def isNameChar (c : Char) : Bool :=
  c.isAlphanum || c == '_'

/-- Whether a character may begin the name of a variable. -/
def isNameStart (c : Char) : Bool :=
  c.isAlpha || c == '_'

/-- The value of an octal digit. -/
def octalDigit? (c : Char) : Option Nat :=
  if '0' ≤ c ∧ c ≤ '7' then some (c.toNat - 48) else none

/-- Up to so many octal digits in front of a text, as a number, and the rest. -/
def octal (n : Nat) : Nat → Octets → Nat × Octets
  | 0, o => (n, o)
  | _ + 1, [] => (n, [])
  | width + 1, c :: o =>
    match octalDigit? c with
    | some d => octal (8 * n + d) width o
    | none => (n, c :: o)

/-- The byte of a number, its low eight bits. -/
def byteChar (n : Nat) : Char :=
  Char.ofNat (n % 256)

/-- The character that a letter after a backslash stands for, in the texts of programs. -/
def controlEscape? : Char → Option Char
  | 'a' => some '\x07'
  | 'b' => some '\x08'
  | 'f' => some '\x0c'
  | 'n' => some '\n'
  | 'r' => some '\r'
  | 't' => some '\t'
  | 'v' => some '\x0b'
  | '\\' => some '\\'
  | _ => none

end Shell
end ImagePolicy
