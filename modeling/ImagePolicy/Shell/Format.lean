/-
# Printed formats

Texts with backslash escapes, and formats with conversions of arguments as in C. A format is gone
through as often as its arguments last, and at least once; where they end within it, the empty text
or zero is converted. A conversion can go wrong in part: then the argument is complained of, and
printing goes on.

Key definitions: `Shell.unescape`, `Shell.Conversion`, `Shell.format`.
-/
import ImagePolicy.Shell.Octets

namespace ImagePolicy
namespace Shell

/-! ### Escapes -/

/-- What stands for a backslash and what follows it, and the rest. A backslash before what is no
escape stays. -/
def escapeAt (o : Octets) : Char × Octets :=
  match o with
  | [] => ('\\', [])
  | 'e' :: rest => ('\x1b', rest)
  | c :: rest =>
    match octalDigit? c, controlEscape? c with
    | some _, _ => let (n, rest) := octal 0 3 (c :: rest); (byteChar n, rest)
    | none, some e => (e, rest)
    | none, none => ('\\', c :: rest)

/-- A text with its backslash escapes taken, and whether it ends all output. The digits of an octal
escape may follow a zero that does not count. -/
def unescape : Nat → Octets → Octets × Bool
  | 0, o => (o, false)
  | _ + 1, [] => ([], false)
  | _ + 1, '\\' :: 'c' :: _ => ([], true)
  | fuel + 1, '\\' :: o =>
    let o := match o with
      | '0' :: d :: o' => if (octalDigit? d).isSome then d :: o' else o
      | o => o
    let (c, rest) := escapeAt o
    let (text, stop) := unescape fuel rest
    (c :: text, stop)
  | fuel + 1, c :: o => let (text, stop) := unescape fuel o; (c :: text, stop)

/-! ### Numbers -/

/-- A number in a base, in lower-case digits. -/
def inBase (base n : Nat) : Octets :=
  Nat.toDigits base n

/-- The quotient nearest to a fraction; a half goes to the even neighbour. -/
def nearest (num den : Nat) : Nat :=
  let q := num / den
  let r := 2 * (num % den)
  if r < den then q else if den < r then q + 1 else q + q % 2

/-- A fraction of natural numbers, with a sign. -/
structure Fraction where
  negative : Bool
  num : Nat
  den : Nat
  deriving DecidableEq, Repr

namespace Fraction

/-- Zero. -/
def zero : Fraction := ⟨false, 0, 1⟩

/-- With so many places after the point. -/
def fixed (f : Fraction) (places : Nat) : Octets :=
  let scaled := Text.padded (places + 1) (nearest (f.num * Nat.pow 10 places) f.den)
  let whole := scaled.take (scaled.length - places)
  if places = 0 then scaled else whole ++ '.' :: scaled.drop whole.length

/-- The exponent of the leading digit, so many steps up or down from zero at most. -/
def exponentFrom (f : Fraction) : Nat → Int → Int
  | 0, e => e
  | fuel + 1, e =>
    let up : Nat := Nat.pow 10 e.natAbs
    let (num, den) := if 0 ≤ e then (f.num, f.den * up) else (f.num * up, f.den)
    if num < den then exponentFrom f fuel (e - 1)
    else if 10 * den ≤ num then exponentFrom f fuel (e + 1)
    else e

/-- The leading digit and so many after it, as a number, and the exponent of the first. -/
def scientificParts (f : Fraction) (places : Nat) : Nat × Int :=
  if f.num = 0 then (0, 0)
  else
    let e := exponentFrom f 800 0
    let shift : Int := places - e
    let n :=
      if 0 ≤ shift then nearest (f.num * Nat.pow 10 shift.natAbs) f.den
      else nearest f.num (f.den * Nat.pow 10 shift.natAbs)
    if Nat.pow 10 (places + 1) ≤ n then (n / 10, e + 1) else (n, e)

/-- The text of an exponent. -/
def exponentText (e : Int) : Octets :=
  (if e < 0 then '-' else '+') :: Text.padded 2 e.natAbs

/-- With a leading digit, so many after the point, and an exponent. -/
def scientific (f : Fraction) (places : Nat) : Octets :=
  let (n, e) := scientificParts f places
  let digits := Text.padded (places + 1) n
  digits.take 1 ++ (if places = 0 then [] else '.' :: digits.drop 1) ++ 'e' :: exponentText e

/-- Without zeros at the end of the places after the point. -/
def trimmed (o : Octets) : Octets :=
  if o.contains '.' then
    let kept := (o.reverse.dropWhile (· = '0')).reverse
    if kept.getLast? = some '.' then kept.dropLast else kept
  else o

/-- With so many digits that count, in the shorter of both ways. -/
def general (f : Fraction) (digits : Nat) (full : Bool) : Octets :=
  let digits := max digits 1
  let (_, e) := scientificParts f (digits - 1)
  if e < -4 ∨ (digits : Int) ≤ e then
    let text := scientific f (digits - 1)
    let front := text.takeWhile (· ≠ 'e')
    (if full then front else trimmed front) ++ text.drop front.length
  else
    let text := fixed f ((digits : Int) - 1 - e).toNat
    if full then text else trimmed text

end Fraction

/-! ### Conversions -/

/-- A conversion: its flags, its width and its precision. -/
structure Conversion where
  left : Bool := false
  plus : Bool := false
  blank : Bool := false
  full : Bool := false
  zeros : Bool := false
  width : Nat := 0
  precision : Option Nat := none

/-- A text filled up to the width of a conversion. -/
def Conversion.fill (c : Conversion) (o : Octets) : Octets :=
  let missing := c.width - o.length
  if c.left then o ++ List.replicate missing ' ' else List.replicate missing ' ' ++ o

/-- A number filled up to the width of a conversion, with zeros after its sign if they are asked
for. -/
def Conversion.fillNumber (c : Conversion) (zeros : Bool) (sign digits : Octets) : Octets :=
  if zeros ∧ !c.left then
    sign ++ List.replicate (c.width - sign.length - digits.length) '0' ++ digits
  else c.fill (sign ++ digits)

/-- The sign of a number. -/
def Conversion.sign (c : Conversion) (negative : Bool) : Octets :=
  if negative then ['-'] else if c.plus then ['+'] else if c.blank then [' '] else []

/-- The digits of a number with at least as many as the precision asks for. -/
def Conversion.digits (c : Conversion) (o : Octets) : Octets :=
  match c.precision with
  | some 0 => if o = ['0'] then [] else o
  | some n => List.replicate (n - o.length) '0' ++ o
  | none => o

/-- An integer in decimal. -/
def Conversion.signed (c : Conversion) (n : Int) : Octets :=
  c.fillNumber (c.zeros && c.precision.isNone) (c.sign (n < 0)) (c.digits (Text.decimal n.natAbs))

/-- A natural number in a base. -/
def Conversion.unsigned (c : Conversion) (kind : Char) (n : Nat) : Octets :=
  let zeros := c.zeros && c.precision.isNone
  match kind with
  | 'x' =>
    c.fillNumber zeros (if c.full ∧ n ≠ 0 then ['0', 'x'] else []) (c.digits (inBase 16 n))
  | 'X' =>
    c.fillNumber zeros (if c.full ∧ n ≠ 0 then ['0', 'X'] else [])
      (c.digits ((inBase 16 n).map Char.toUpper))
  | 'o' =>
    let digits := c.digits (inBase 8 n)
    c.fillNumber zeros [] (if c.full ∧ digits.head? ≠ some '0' then '0' :: digits else digits)
  | _ => c.fillNumber zeros [] (c.digits (Text.decimal n))

/-- A fraction. -/
def Conversion.fraction (c : Conversion) (kind : Char) (f : Fraction) : Octets :=
  let places := c.precision.getD 6
  let text := match kind.toLower with
    | 'e' => f.scientific places
    | 'g' => f.general places c.full
    | _ => f.fixed places
  let text := if kind.isUpper then text.map Char.toUpper else text
  c.fillNumber c.zeros (c.sign f.negative) text

/-! ### Formats -/

/-- Reads an integer that may be signed: its value, what of the text is left, and whether it is out
of range. -/
structure NumberReading where
  value : Int
  left : Octets
  outOfRange : Bool := false

/-- The digits of a base in front of a text, as a number, and the rest. -/
def digitsIn (base : Nat) (n : Nat) : Octets → Nat × Octets
  | [] => (n, [])
  | c :: o =>
    match Text.hexDigit? c with
    | some d => if d < base then digitsIn base (base * n + d) o else (n, c :: o)
    | none => (n, c :: o)

/-- The number in front of a text, hexadecimal after `0x`, octal after a zero, and the rest. -/
def constantAt : Octets → Nat × Octets
  | '0' :: x :: c :: o =>
    if (x = 'x' ∨ x = 'X') ∧ (Text.hexDigit? c).isSome then digitsIn 16 0 (c :: o)
    else digitsIn 8 0 (x :: c :: o)
  | '0' :: o => digitsIn 8 0 o
  | o => digitsIn 10 0 o

/-- Whether a character is white space. -/
def isSpaceChar (c : Char) : Bool := c = ' ' || ('\t' ≤ c && c ≤ '\x0d')

/-- The integer in decimal that a text spells, which may have white space around it. -/
def decimalInteger? (o : Octets) : Option Int :=
  let (negative, body) := match o.dropWhile isSpaceChar with
    | '-' :: o => (true, o)
    | '+' :: o => (false, o)
    | o => (false, o)
  match Octets.toNat? (body.takeWhile Char.isDigit) with
  | some n =>
    if (body.dropWhile Char.isDigit).all isSpaceChar then some (if negative then -(n : Int) else n)
    else none
  | none => none

/-- The integer that stands in front of a text after white space, and the rest; nothing is read as
zero, and then all is left. -/
def integerAt (o : Octets) : Int × Octets :=
  let signed : Bool → Octets → Int × Octets := fun negative o' =>
    match o' with
    | c :: _ =>
      if c.isDigit then
        let (n, rest) := constantAt o'
        (if negative then -(n : Int) else n, rest)
      else (0, o)
    | [] => (0, o)
  match o.dropWhile isSpaceChar with
  | '-' :: o' => signed true o'
  | '+' :: o' => signed false o'
  | o' => signed false o'

/-- The least and the greatest integer of 64 bits. -/
def integerBounds : Int × Int := (-9223372036854775808, 9223372036854775807)

/-- The greatest natural number of 64 bits. -/
def naturalBound : Int := 18446744073709551615

/-- The integer that an argument spells; after a quote it is the code of the next character. -/
def readInteger (isSigned : Bool) (o : Octets) : NumberReading :=
  match o with
  | [] => ⟨0, [], false⟩
  | c :: rest =>
    if c = '"' ∨ c = '\'' then ⟨(rest.headD '\x00').toNat, [], false⟩
    else
      let (n, left) := integerAt (c :: rest)
      let (low, high) := if isSigned then integerBounds else (-naturalBound, naturalBound)
      let kept := if n < low then low else if high < n then high else n
      ⟨kept, left, kept ≠ n⟩

/-- The fraction that an argument spells, and what of it is left. -/
def readFraction (o : Octets) : Fraction × Octets :=
  match o with
  | [] => (.zero, [])
  | c :: rest =>
    if c = '"' ∨ c = '\'' then (⟨false, (rest.headD '\x00').toNat, 1⟩, [])
    else
      let text := o.dropWhile isSpaceChar
      let (negative, text) := match text with
        | '-' :: t => (true, t)
        | '+' :: t => (false, t)
        | t => (false, t)
      let whole := text.takeWhile Char.isDigit
      let after := text.drop whole.length
      let (places, after) := match after with
        | '.' :: t => (t.takeWhile Char.isDigit, t.dropWhile Char.isDigit)
        | t => ([], t)
      if whole.isEmpty ∧ places.isEmpty then (.zero, o)
      else
        let n := ((whole ++ places).filterMap Text.digit?).foldl (fun n d => 10 * n + d) 0
        let exponent : Int × Octets := match after with
          | e :: t =>
            if e = 'e' ∨ e = 'E' then
              let (sign, digits) : Int × Octets := match t with
                | '-' :: d => (-1, d)
                | '+' :: d => (1, d)
                | d => (1, d)
              match Octets.toNat? (digits.takeWhile Char.isDigit) with
              | some n => (sign * (min n 400 : Nat), digits.dropWhile Char.isDigit)
              | none => (0, after)
            else (0, after)
          | [] => (0, [])
        let scale : Int := exponent.1 - places.length
        (if 0 ≤ scale then ⟨negative, n * Nat.pow 10 scale.toNat, 1⟩
          else ⟨negative, n, Nat.pow 10 (-scale).toNat⟩, exponent.2)

/-- Why an argument is no number of the kind that is asked for. -/
inductive Misfit where
  | noNumber
  | incomplete
  | outOfRange
  deriving DecidableEq, Repr

/-- What has been printed: the text, the complaints, whether printing is to stop, and why it cannot
go on if it cannot. -/
structure Printed where
  text : Octets := []
  complaints : List (Octets × Misfit) := []
  stopped : Bool := false
  fault : Option Octets := none

/-- What printing goes on from: the arguments left, whether any was asked for, and what has been
printed. -/
structure Printing where
  arguments : List Octets
  asked : Bool := false
  printed : Printed := {}

namespace Printing

/-- Adds a text. -/
def add (p : Printing) (o : Octets) : Printing :=
  { p with printed := { p.printed with text := p.printed.text ++ o } }

/-- Adds a complaint. -/
def complain (p : Printing) (argument : Octets) (m : Misfit) : Printing :=
  { p with printed := { p.printed with complaints := p.printed.complaints ++ [(argument, m)] } }

/-- Gives up. -/
def fail (p : Printing) (o : Octets) : Printing :=
  { p with printed := { p.printed with fault := some o } }

/-- Takes the next argument. -/
def take (p : Printing) : Option Octets × Printing :=
  match p.arguments with
  | [] => (none, { p with asked := true })
  | a :: as => (some a, { p with arguments := as, asked := true })

/-- Complains of an argument of which something is left. -/
def check (p : Printing) (argument left : Octets) (outOfRange : Bool) : Printing :=
  if left = argument ∧ !left.isEmpty then p.complain argument .noNumber
  else if !left.isEmpty then p.complain argument .incomplete
  else if outOfRange then p.complain argument .outOfRange
  else p

/-- Takes the next argument as an integer. -/
def takeInteger (isSigned : Bool) (p : Printing) : Int × Printing :=
  match p.take with
  | (none, p) => (0, p)
  | (some a, p) =>
    let r := readInteger isSigned a
    (r.value, p.check a r.left r.outOfRange)

/-- Takes the next argument as a fraction. -/
def takeFraction (p : Printing) : Fraction × Printing :=
  match p.take with
  | (none, p) => (.zero, p)
  | (some a, p) => let (f, left) := readFraction a; (f, p.check a left false)

/-- Takes the next argument as a text. -/
def takeText (p : Printing) : Octets × Printing :=
  let (a, p) := p.take
  (a.getD [], p)

/-- A width or a precision: digits, or the next argument for an asterisk. -/
def takeSize (p : Printing) (o : Octets) : Int × Octets × Printing :=
  match o with
  | '*' :: o => let (n, p) := p.takeInteger true; (n, o, p)
  | o =>
    let digits := o.takeWhile Char.isDigit
    (((Octets.toNat? digits).getD 0 : Nat), o.drop digits.length, p)

/-- The conversion after a percent sign, without its letter. -/
def takeConversion (p : Printing) (o : Octets) : Conversion × Octets × Printing :=
  let isFlag : Char → Bool := ['#', '-', '+', ' ', '0'].contains
  let flags := o.takeWhile isFlag
  let (width, o, p) := p.takeSize (o.drop flags.length)
  let (precision, o, p) : Option Int × Octets × Printing := match o with
    | '.' :: o => let (n, o, p) := p.takeSize o; (some n, o, p)
    | o => (none, o, p)
  ({ left := flags.contains '-' || width < 0
     plus := flags.contains '+'
     blank := flags.contains ' '
     full := flags.contains '#'
     zeros := flags.contains '0'
     width := width.natAbs
     precision := precision.bind fun n => if n < 0 then none else some n.toNat }, o, p)

/-- Prints an argument as a conversion says. -/
def convert (p : Printing) (c : Conversion) (kind : Char) (start : Octets) : Printing :=
  let cut : Octets → Octets := fun o => match c.precision with
    | some n => o.take n
    | none => o
  match kind with
  | 's' => let (a, p) := p.takeText; p.add (c.fill (cut a))
  | 'b' =>
    let (a, p) := p.takeText
    let (text, stop) := unescape (a.length + 1) a
    let p := p.add (c.fill (cut text))
    { p with printed := { p.printed with stopped := stop } }
  | 'c' => let (a, p) := p.takeText; p.add (c.fill [a.headD '\x00'])
  | 'd' => let (n, p) := p.takeInteger true; p.add (c.signed n)
  | 'i' => let (n, p) := p.takeInteger true; p.add (c.signed n)
  | kind =>
    if ['o', 'u', 'x', 'X'].contains kind then
      let (n, p) := p.takeInteger false
      p.add (c.unsigned kind (n % (naturalBound + 1)).toNat)
    else if ['e', 'E', 'f', 'F', 'g', 'G'].contains kind then
      let (f, p) := p.takeFraction
      p.add (c.fraction kind f)
    else p.fail (start ++ ": invalid directive".toList)

/-- Goes once through a format. -/
def once : Nat → Printing → Octets → Printing
  | 0, p, _ => p
  | _ + 1, p, [] => p
  | fuel + 1, p, '\\' :: o => let (c, rest) := escapeAt o; once fuel (p.add [c]) rest
  | fuel + 1, p, '%' :: '%' :: o => once fuel (p.add ['%']) o
  | fuel + 1, p, '%' :: o =>
    let (c, rest, p) := p.takeConversion o
    match rest with
    | [] => p.fail "missing format character".toList
    | kind :: rest =>
      let start := '%' :: o.take (o.length - rest.length)
      let p := p.convert c kind start
      if p.printed.stopped || p.printed.fault.isSome then p else once fuel p rest
  | fuel + 1, p, c :: o =>
    let run := c :: o.takeWhile fun c => c ≠ '%' && c ≠ '\\'
    once fuel (p.add run) (o.drop (run.length - 1))

/-- Goes through a format until no argument is left. -/
def rounds (o : Octets) : Nat → Printing → Printing
  | 0, p => p
  | n + 1, p =>
    let p := once (o.length + 1) { p with asked := false } o
    if p.arguments.isEmpty || !p.asked || p.printed.stopped || p.printed.fault.isSome then p
    else rounds o n p

end Printing

/-- Prints arguments as a format says. -/
def format (o : Octets) (arguments : List Octets) : Printed :=
  (Printing.rounds o (arguments.length + 1) ⟨arguments, false, {}⟩).printed

end Shell
end ImagePolicy
