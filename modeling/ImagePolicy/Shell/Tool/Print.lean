/-
# Tools that print

Tools that write what their arguments say: `echo`, `printf`, `printenv`, `seq`, `yes` and `expr`.
Two more write nothing and end well or not, and `sleep` waits.

Key definitions: `Shell.echo`, `Shell.printf`, `Shell.sequence`, `Shell.calculate`, `Shell.sleep`.
-/
import ImagePolicy.Shell.Tool.Basic
import ImagePolicy.Shell.Format
import ImagePolicy.Shell.Regex

namespace ImagePolicy
namespace Shell

/-! ### Texts -/

/-- Whether an argument is made of letters of options of `echo`. -/
def isEchoOption : Octets → Bool
  | '-' :: c :: cs => (c :: cs).all ['n', 'e', 'E'].contains
  | _ => false

/-- A text with its escapes taken as `echo` does: octal digits count only after a zero. -/
def echoEscapes : Nat → Octets → Octets × Bool
  | 0, o => (o, false)
  | _ + 1, [] => ([], false)
  | _ + 1, '\\' :: 'c' :: _ => ([], true)
  | fuel + 1, '\\' :: '0' :: o =>
    let (n, rest) := octal 0 3 o
    let (text, stop) := echoEscapes fuel rest
    (byteChar n :: text, stop)
  | fuel + 1, '\\' :: 'e' :: o => let (text, stop) := echoEscapes fuel o; ('\x1b' :: text, stop)
  | fuel + 1, '\\' :: c :: o =>
    let (text, stop) := echoEscapes fuel o
    match controlEscape? c with
    | some e => (e :: text, stop)
    | none => ('\\' :: c :: text, stop)
  | fuel + 1, c :: o => let (text, stop) := echoEscapes fuel o; (c :: text, stop)

/-- Writes its arguments with a blank between them. -/
def echo : Tool := fun g =>
  let options := (g.arguments.takeWhile isEchoOption).flatten
  let text := Octets.join [' '] (g.arguments.dropWhile isEchoOption)
  let escapes := (options.reverse.find? fun c => c = 'e' ∨ c = 'E') = some 'e'
  let (text, stop) := if escapes then echoEscapes (text.length + 1) text else (text, false)
  g.say (if stop ∨ options.contains 'n' then text else text ++ ['\n'])

/-- The message of a tool for a misfit. -/
def misfitMessage (argument : Octets) : Misfit → Octets
  | .noNumber => quotedName argument ++ ": expected a numeric value".toList
  | .incomplete => quotedName argument ++ ": value not completely converted".toList
  | .outOfRange => quotedName argument ++ ": Numerical result out of range".toList

/-- Writes its arguments as a format says. -/
def printf : Tool := fun g =>
  match (if g.arguments.head? = some ['-', '-'] then g.arguments.tail else g.arguments) with
  | [] => g.complain 1 (withHint "printf" "missing operand".toList)
  | f :: as =>
    let p := format f as
    let r := p.complaints.foldl (fun (r : Result) (a, m) =>
        r.note ("printf: ".toList ++ misfitMessage a m))
      ((g.finish (if p.complaints.isEmpty then 0 else 1)).say p.text)
    match p.fault with
    | some e => r.fail 1 ("printf: ".toList ++ e)
    | none => r

/-- Writes the variables of the environment, or the values of some of them. -/
def printEnvironment : Tool := fun g =>
  withOptions "printenv" 2 ⟨"0", [("null", '0')]⟩ g fun o names =>
    let ending : Octets := if o.has '0' then ['\x00'] else ['\n']
    if names.isEmpty then g.say (g.bindings.flatMap fun (n, v) => n ++ '=' :: v ++ ending)
    else
      let values := names.filterMap fun n => g.bindings.lookup n
      { g.finish (if values.length = names.length then 0 else 1) with }.say
        (values.flatMap fun v => v ++ ending)

/-- How often `yes` writes its line before nobody reads it any more. -/
def yesLines : Nat := 20000

/-- Writes a line again and again. -/
def yes : Tool := fun g =>
  let line := (if g.arguments.isEmpty then ['y'] else Octets.join [' '] g.arguments) ++ ['\n']
  g.say (List.replicate yesLines line).flatten

/-! ### Sequences -/

/-- A decimal number: an integer of so many places after the point. -/
structure DecimalNumber where
  value : Int
  places : Nat

/-- The decimal number that a text spells. -/
def decimalNumber? (o : Octets) : Option DecimalNumber :=
  let (negative, o) := match o with
    | '-' :: o => (true, o)
    | '+' :: o => (false, o)
    | o => (false, o)
  let whole := o.takeWhile Char.isDigit
  let places : Option Octets := match o.drop whole.length with
    | [] => some []
    | '.' :: p => if p.all Char.isDigit then some p else none
    | _ => none
  match places with
  | none => none
  | some places =>
    (Octets.toNat? (whole ++ places)).map fun n =>
      ⟨if negative then -(n : Int) else n, places.length⟩

/-- The value of a decimal number with more places. -/
def DecimalNumber.scaled (n : DecimalNumber) (places : Nat) : Int :=
  n.value * (Nat.pow 10 (places - n.places) : Nat)

/-- The text of an integer with so many places after the point. -/
def pointText (places : Nat) (n : Int) : Octets :=
  let digits := Text.padded (places + 1) n.natAbs
  let whole := digits.take (digits.length - places)
  (if n < 0 then ['-'] else []) ++ whole ++
    (if places = 0 then [] else '.' :: digits.drop whole.length)

/-- Writes the numbers from one to another. -/
def sequence : Tool := fun g =>
  let isNumber : Octets → Bool := fun a => (decimalNumber? a).isSome
  let options := g.arguments.takeWhile fun a => a.head? = some '-' && !isNumber a
  let (flags, numbers) : Options × List Octets :=
    match options with
    | [] => ([], g.arguments)
    | _ =>
      match readOptions ⟨"s:wf:", [("separator", 's'), ("equal-width", 'w'), ("format", 'f')]⟩
          g.arguments.length (g.arguments.takeWhile fun a => !isNumber a) with
      | .ok (o, operands) => (o, operands ++ g.arguments.dropWhile fun a => !isNumber a)
      | .error _ => ([], g.arguments)
  match numbers.find? fun a => !isNumber a with
  | some a =>
    g.complain 1 (withHint "seq" ("invalid floating point argument: ".toList ++ quotedName a))
  | none =>
    let parts := numbers.filterMap decimalNumber?
    let one : DecimalNumber := ⟨1, 0⟩
    let bounds : Option (DecimalNumber × DecimalNumber × DecimalNumber) := match parts with
      | [last] => some (one, one, last)
      | [first, last] => some (first, one, last)
      | [first, step, last] => some (first, step, last)
      | _ => none
    match bounds with
    | none =>
      match numbers with
      | [] => g.complain 1 (withHint "seq" "missing operand".toList)
      | _ =>
        let extra := numbers[3]?.getD []
        g.complain 1 (withHint "seq" ("extra operand ".toList ++ quotedName extra))
    | some (first, step, last) =>
      let places := max first.places step.places
      let scale := max places last.places
      let (a, s, b) := (first.scaled scale, step.scaled scale, last.scaled scale)
      if s = 0 then
        g.complain 1 (withHint "seq" ("invalid Zero increment value: ".toList ++
          quotedName (numbers[1]?.getD [])))
      else
        let count : Nat := if 0 < s then (if a ≤ b then ((b - a) / s).toNat + 1 else 0)
          else (if b ≤ a then ((a - b) / (-s)).toNat + 1 else 0)
        let shrink : Int := (Nat.pow 10 (scale - places) : Nat)
        let texts := (List.range count).map fun (i : Nat) =>
          pointText places ((a + s * Int.ofNat i) / shrink)
        let width := texts.foldl (fun n t => max n t.length) 0
        let texts := if !flags.has 'w' then texts else texts.map fun t =>
          match t with
          | '-' :: t => '-' :: List.replicate (width - t.length - 1) '0' ++ t
          | t => List.replicate (width - t.length) '0' ++ t
        let texts := match flags.value? 'f' with
          | some f => texts.map fun t => (format f [t]).text
          | none => texts
        let separator := match flags.value? 's' with
          | some s => (echoEscapes (s.length + 1) s).1
          | none => ['\n']
        g.say (if texts.isEmpty then [] else Octets.join separator texts ++ ['\n'])

/-! ### Expressions -/

/-- Whether a value of an expression counts as nothing. -/
def isNothing (o : Octets) : Bool :=
  o.isEmpty || (o.dropWhile (· = '-')).all (· = '0') && Octets.toInt? o = some 0

/-- An expression being worked out: the words left, and what is wrong with it. -/
abbrev Working (α : Type) := StateT (List Octets) (Except Octets) α

namespace Working

/-- The word in front, if it is one of some operators. -/
def operator? (names : List String) : Working (Option String) := do
  match ← get with
  | w :: ws =>
    if names.contains (String.ofList w) then
      set ws
      return some (String.ofList w)
    else return none
  | [] => return none

/-- The integer that a value spells. -/
def integer (o : Octets) : Working Int :=
  match o with
  | '+' :: _ => throw "non-integer argument".toList
  | o =>
    match Octets.toInt? o with
    | some n => return n
    | none => throw "non-integer argument".toList

/-- The word in front. -/
def word : Working Octets := do
  match ← get with
  | w :: ws => set ws; return w
  | [] => throw "syntax error: missing argument after".toList

/-- What a match at the front of a text gives: the group, or how long it is. -/
def matched (text pattern : Octets) : Working Octets := do
  match Regex.read ⟨false, false⟩ pattern with
  | .error e => throw e.message.toList
  | .ok rs =>
    let hasGroup : Bool := 0 < Regex.groupCount ⟨false, false⟩ pattern
    match Regex.furthest (Regex.afterParts rs [⟨text, none, []⟩]) with
    | some p =>
      if hasGroup then return (p.captures.lookup 1).getD []
      else return Octets.ofNat (text.length - p.rest.length)
    | none => return if hasGroup then [] else ['0']

/-- Values joined by operators of one rank, of which the first is given. -/
def joined (fuel : Nat) (names : List String) (next : Working Octets)
    (apply : String → Octets → Octets → Working Octets) (a : Octets) : Working Octets :=
  match fuel with
  | 0 => return a
  | fuel + 1 => do
    match ← operator? names with
    | none => return a
    | some o =>
      let b ← next
      joined fuel names next apply (← apply o a b)

/-- An operation on integers. -/
def compute (o : String) (a b : Octets) : Working Octets := do
  let m ← integer a
  let n ← integer b
  match o with
  | "+" => return Text.integer (m + n)
  | "-" => return Text.integer (m - n)
  | "*" => return Text.integer (m * n)
  | o =>
    if n = 0 then throw "division by zero".toList
    else return Text.integer (if o = "/" then m.tdiv n else m.tmod n)

/-- A comparison, of integers if both values are. -/
def relate (o : String) (a b : Octets) : Working Octets :=
  let order := match Octets.toInt? a, Octets.toInt? b with
    | some m, some n => compare m n
    | _, _ => if a = b then .eq else if a < b then .lt else .gt
  let holds : Bool := match o with
    | "<" => order = .lt
    | "<=" => order ≠ .gt
    | "!=" => order ≠ .eq
    | ">=" => order ≠ .lt
    | ">" => order = .gt
    | _ => order = .eq
  return if holds then ['1'] else ['0']

/-- A single value, so many levels deep at most. -/
def value (expression : Working Octets) : Working Octets := do
  let w ← word
  match String.ofList w with
  | "(" =>
    let v ← expression
    match ← operator? [")"] with
    | some _ => return v
    | none => throw "syntax error: expecting ')'".toList
  | "length" => return Octets.ofNat (← word).length
  | "match" => do
    let text ← word
    matched text (← word)
  | "substr" => do
    let text ← word
    let start ← integer (← word)
    let length ← integer (← word)
    return if start ≤ 0 ∨ length ≤ 0 then [] else (text.drop (start.toNat - 1)).take length.toNat
  | "index" => do
    let text ← word
    let chars ← word
    return Octets.ofNat (((text.findIdx? chars.contains).map (· + 1)).getD 0)
  | "+" => word
  | _ => return w

/-- An expression, so many levels deep at most. -/
def expression : Nat → Working Octets
  | 0 => throw "syntax error".toList
  | n + 1 => do
    let fuel := (← get).length + 1
    let ranked := fun (names : List String) (next : Working Octets) apply => do
      joined fuel names next apply (← next)
    let texts := ranked [":"] (value (expression n)) fun _ => matched
    let products := ranked ["*", "/", "%"] texts compute
    let sums := ranked ["+", "-"] products compute
    let relations := ranked ["<", "<=", "=", "==", "!=", ">=", ">"] sums relate
    let conjunctions := ranked ["&"] relations fun _ a b =>
      return if isNothing a || isNothing b then ['0'] else a
    ranked ["|"] conjunctions fun _ a b =>
      return if !isNothing a then a else if isNothing b then ['0'] else b

end Working

/-- Writes the value of the expression that its arguments make. -/
def calculate : Tool := fun g =>
  match g.arguments with
  | [] => g.complain 2 (withHint "expr" "missing operand".toList)
  | ws =>
    match (Working.expression (ws.length + 1)).run ws with
    | .error e =>
      let e := if e = "syntax error: missing argument after".toList then
        e ++ ' ' :: quotedName (ws.getLastD []) else e
      g.complain 2 ("expr: ".toList ++ e)
    | .ok (_, w :: _) =>
      g.complain 2 ("expr: syntax error: unexpected argument ".toList ++ quotedName w)
    | .ok (v, []) =>
      { g.finish (if isNothing v then 1 else 0) with }.say (v ++ ['\n'])

/-! ### Waiting -/

/-- The milliseconds of a number of seconds with an optional fraction and unit. -/
def durationOf? (text : Octets) : Option Nat :=
  let (unit, number) : Nat × Octets := match text.getLast? with
    | some 's' => (1, text.dropLast)
    | some 'm' => (60, text.dropLast)
    | some 'h' => (3600, text.dropLast)
    | some 'd' => (86400, text.dropLast)
    | _ => (1, text)
  (decimalNumber? number).bind fun n =>
    if n.value < 0 then none
    else some (unit * 1000 * n.value.toNat / Nat.pow 10 n.places)

/-- The milliseconds of the longest wait. -/
def forever : Nat := 1000000000000

/-- Waits. -/
def sleep : Tool := fun g =>
  withOptions "sleep" 1 ⟨"", []⟩ g fun _ operands =>
    let duration? : Octets → Option Nat := fun o =>
      if ["infinity", "inf"].contains (String.ofList o) then some forever else durationOf? o
    match operands, operands.find? fun o => (duration? o).isNone with
    | [], _ => g.complain 1 (withHint "sleep" "missing operand".toList)
    | _, some o =>
      g.complain 1 (withHint "sleep" ("invalid time interval ".toList ++ quotedName o))
    | os, none => { g.finish 0 with duration := (os.filterMap duration?).foldl Nat.add 0 }

end Shell
end ImagePolicy
