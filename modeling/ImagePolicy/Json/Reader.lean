/-
# Reading JSON

The tree of a JSON text. The source is a list of characters in which `none` stands for bytes that
spell no character; such bytes are tolerated inside strings only, and the string then has no
content. Blanks are the four of JSON. Nothing may follow the value.

Key definitions: `Json.Source`, `Json.readValue`, `Json.read`, `Json.readString`.
-/
import ImagePolicy.Json.Tree
import ImagePolicy.Text.Utf8

namespace ImagePolicy
namespace Json

/-- A text to read, `none` where bytes spell no character. -/
abbrev Source := List (Option Char)

/-- A string as a source. -/
def Source.ofString (s : String) : Source :=
  s.toList.map some

/-- The source without the blanks in front. -/
def skipBlanks : Source → Source
  | some c :: s => if c = ' ' ∨ c = '\n' ∨ c = '\t' ∨ c = '\r' then skipBlanks s else some c :: s
  | s => s

/-- Takes a word off the source. -/
def expect : List Char → Source → Option Source
  | [], s => some s
  | c :: cs, some d :: s => if c = d then expect cs s else none
  | _ :: _, _ => none

/-! ### Strings -/

/-- A part of a string: a character, half of a surrogate pair, or bytes that spell no character. -/
inductive Piece where
  | char (c : Char)
  | half (unit : Nat)
  | stray

/-- The character after a backslash. -/
def escape? : Char → Option Char
  | '"' => some '"'
  | '\\' => some '\\'
  | '/' => some '/'
  | 'b' => some '\x08'
  | 'f' => some '\x0c'
  | 'n' => some '\n'
  | 'r' => some '\r'
  | 't' => some '\t'
  | _ => none

/-- The number of four hexadecimal digits. -/
def hex4? (a b c d : Char) : Option Nat :=
  match Text.hexDigit? a, Text.hexDigit? b, Text.hexDigit? c, Text.hexDigit? d with
  | some a, some b, some c, some d => some (((a * 16 + b) * 16 + c) * 16 + d)
  | _, _, _, _ => none

/-- The piece of a code unit. -/
def Piece.ofUnit (n : Nat) : Piece :=
  if 0xD800 ≤ n ∧ n ≤ 0xDFFF then .half n else .char (Char.ofNat n)

/-- The pieces up to the closing quote, after those already read, newest first. -/
def readPieces (pieces : List Piece) : Source → Option (List Piece × Source)
  | [] => none
  | none :: s => readPieces (.stray :: pieces) s
  | some '"' :: s => some (pieces.reverse, s)
  | some '\\' :: some 'u' :: some a :: some b :: some c :: some d :: s =>
    match hex4? a b c d with
    | some n => readPieces (.ofUnit n :: pieces) s
    | none => none
  | some '\\' :: some e :: s =>
    match escape? e with
    | some c => readPieces (.char c :: pieces) s
    | none => none
  | some '\\' :: _ => none
  | some c :: s => if c.toNat < 0x20 then none else readPieces (.char c :: pieces) s

/-- The text of pieces, after the characters already joined, newest first: two halves in a row
make a character. -/
def joinPieces (joined : List Char) : List Piece → Option (List Char)
  | [] => some joined.reverse
  | .char c :: ps => joinPieces (c :: joined) ps
  | .half high :: .half low :: ps =>
    if high < 0xDC00 ∧ 0xDC00 ≤ low then
      joinPieces (Char.ofNat (0x10000 + (high - 0xD800) * 0x400 + (low - 0xDC00)) :: joined) ps
    else none
  | .half _ :: _ => none
  | .stray :: _ => none

/-- The content of a string whose opening quote is taken. -/
def readText (s : Source) : Option (Option String × Source) :=
  match readPieces [] s with
  | some (pieces, rest) => some ((joinPieces [] pieces).map String.ofList, rest)
  | none => none

/-! ### Numbers -/

/-- The digits in front of the source. -/
def readDigits : Source → List Nat × Source
  | some c :: s =>
    match Text.digit? c with
    | some d => let (ds, rest) := readDigits s; (d :: ds, rest)
    | none => ([], some c :: s)
  | s => ([], s)

/-- The digits before the point: one, or several of which the first is not zero. -/
def readWhole (s : Source) : Option (List Nat × Source) :=
  match readDigits s with
  | ([], _) => none
  | ([d], rest) => some ([d], rest)
  | (0 :: _ :: _, _) => none
  | (ds, rest) => some (ds, rest)

/-- The digits after a point, if there is a point. -/
def readFraction : Source → Option (List Nat × Source)
  | some '.' :: s =>
    match readDigits s with
    | ([], _) => none
    | (ds, rest) => some (ds, rest)
  | s => some ([], s)

/-- The digits of an exponent. -/
def readPower (negative : Bool) (s : Source) : Option (Option Int × Source) :=
  match readDigits s with
  | ([], _) => none
  | (ds, rest) =>
    let n : Int := Text.ofDigits ds
    some (some (if negative then -n else n), rest)

/-- The exponent, if there is one. -/
def readExponent : Source → Option (Option Int × Source)
  | some c :: s =>
    if c = 'e' ∨ c = 'E' then
      match s with
      | some '+' :: s => readPower false s
      | some '-' :: s => readPower true s
      | s => readPower false s
    else some (none, some c :: s)
  | s => some (none, s)

/-- The number after its sign. -/
def readNumber (negative : Bool) (s : Source) : Option (Tree × Source) :=
  match readWhole s with
  | none => none
  | some (whole, s) =>
    match readFraction s with
    | none => none
    | some (fraction, s) =>
      match readExponent s with
      | none => none
      | some (exponent, s) => some (.number ⟨negative, whole, fraction, exponent⟩, s)

/-! ### Values -/

/-- A word that stands for a value, of which the first letter is seen. -/
def readWord (word : String) (value : Tree) (s : Source) : Option (Tree × Source) :=
  (expect word.toList s).map fun rest => (value, rest)

mutual

/-- The value in front of the source. -/
def readValue : Nat → Source → Option (Tree × Source)
  | 0, _ => none
  | fuel + 1, s =>
    match skipBlanks s with
    | some '"' :: s => (readText s).map fun (content, rest) => (.text content, rest)
    | some '[' :: s =>
      match skipBlanks s with
      | some ']' :: rest => some (.list [], rest)
      | s =>
        match readValue fuel s with
        | none => none
        | some (v, s) => (readItems fuel s).map fun (vs, rest) => (.list (v :: vs), rest)
    | some '\x7b' :: s =>
      match skipBlanks s with
      | some '\x7d' :: rest => some (.object [], rest)
      | s =>
        match readMember fuel s with
        | none => none
        | some (m, s) => (readMembers fuel s).map fun (ms, rest) => (.object (m :: ms), rest)
    | some '-' :: s => readNumber true s
    | some 'n' :: s => readWord "null" .null (some 'n' :: s)
    | some 't' :: s => readWord "true" (.bool true) (some 't' :: s)
    | some 'f' :: s => readWord "false" (.bool false) (some 'f' :: s)
    | s => readNumber false s

/-- The items after the first, up to the end of the list. -/
def readItems : Nat → Source → Option (List Tree × Source)
  | 0, _ => none
  | fuel + 1, s =>
    match skipBlanks s with
    | some ']' :: rest => some ([], rest)
    | some ',' :: s =>
      match readValue fuel s with
      | none => none
      | some (v, s) => (readItems fuel s).map fun (vs, rest) => (v :: vs, rest)
    | _ => none

/-- A key, a colon and a value. -/
def readMember : Nat → Source → Option ((Option String × Tree) × Source)
  | 0, _ => none
  | fuel + 1, s =>
    match skipBlanks s with
    | some '"' :: s =>
      match readText s with
      | none => none
      | some (key, s) =>
        match skipBlanks s with
        | some ':' :: s => (readValue fuel s).map fun (v, rest) => ((key, v), rest)
        | _ => none
    | _ => none

/-- The members after the first, up to the end of the object. -/
def readMembers : Nat → Source → Option (List (Option String × Tree) × Source)
  | 0, _ => none
  | fuel + 1, s =>
    match skipBlanks s with
    | some '\x7d' :: rest => some ([], rest)
    | some ',' :: s =>
      match readMember fuel s with
      | none => none
      | some (m, s) => (readMembers fuel s).map fun (ms, rest) => (m :: ms, rest)
    | _ => none

end

/-- The tree of a whole text. Each step takes a character or is the only one of its kind before the
next is taken, so thrice the length is fuel enough. -/
def read (s : Source) : Option Tree :=
  match readValue (3 * s.length + 3) s with
  | some (t, rest) => if skipBlanks rest = [] then some t else none
  | none => none

/-- The tree of a string. -/
def readString (s : String) : Option Tree :=
  read (.ofString s)

end Json
end ImagePolicy
