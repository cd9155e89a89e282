/-
# Regular expressions

Basic and extended regular expressions. A match is looked for from left to right, and of those that
begin at one place the longest counts. Matching goes through all places that a part can lead to,
each once, the preferred first: a repetition prefers to take more. Groups remember what they
matched.

Key definitions: `Shell.Regex`, `Shell.Regex.read`, `Shell.Regex.after`, `Shell.Regex.find?`.
-/
import ImagePolicy.Shell.Pattern

namespace ImagePolicy
namespace Shell

/-- A part of a regular expression. -/
inductive Regex where
  | set (s : CharSet)
  | start
  | stop
  | edge (atWordStart atWordEnd : Bool)
  | noEdge
  | group (index : Nat) (choices : List (List Regex))
  | repeated (part : Regex) (least : Nat) (most : Option Nat)
  | again (index : Nat)

/-- Why a text is no regular expression. -/
inductive RegexFault where
  | unmatchedBracket
  | unmatchedOpening
  | unmatchedClosing
  | unmatchedBrace
  | badBraces
  | badRange
  | nothingBefore
  | badReference
  | trailingBackslash
  | noClass
  | nothingInBracket
  deriving DecidableEq, Repr

/-- The wording of a fault. -/
def RegexFault.message : RegexFault → String
  | .unmatchedBracket => "Unmatched [, [^, [:, [., or [="
  | .unmatchedOpening => "Unmatched ( or \\("
  | .unmatchedClosing => "Unmatched ) or \\)"
  | .unmatchedBrace => "Unmatched \\\x7b"
  | .badBraces => "Invalid content of \\\x7b\\\x7d"
  | .badRange => "Invalid range end"
  | .nothingBefore => "Invalid preceding regular expression"
  | .badReference => "Invalid back reference"
  | .trailingBackslash => "Trailing backslash"
  | .noClass => "Invalid character class name"
  | .nothingInBracket => "Invalid regular expression"

namespace Regex

/-! ### Matching -/

/-- What groups matched. -/
abbrev Captures := List (Nat × Octets)

/-- Where a match has come to: what is left of the text, the character before it, and what groups
matched. -/
structure Place where
  rest : Octets
  before : Option Char
  captures : Captures := []
  deriving DecidableEq, Repr

namespace Place

/-- The place after so many characters. -/
def forward (p : Place) (n : Nat) : Place :=
  match n with
  | 0 => p
  | n + 1 => { p with rest := p.rest.drop (n + 1), before := p.rest[n]? }

/-- The place with what a group matched. -/
def remember (p : Place) (index : Nat) (text : Octets) : Place :=
  { p with captures := (index, text) :: p.captures.filter fun c => c.1 ≠ index }

/-- Whether the character before and the one after belong to words. -/
def words (p : Place) : Bool × Bool :=
  (p.before.any isNameChar, p.rest.head?.any isNameChar)

end Place

/-- Places, each once. -/
def distinct (ps : List Place) : List Place :=
  (ps.foldl (fun seen p => if seen.contains p then seen else p :: seen) []).reverse

/-- The places that repeating a step leads to, those of more repetitions first. A repetition has to
go forward. -/
def repeats (step : Place → List Place) : Nat → (most : Option Nat) → List Place → List Place →
    List Place
  | 0, _, _, found => found
  | fuel + 1, most, last, found =>
    if last.isEmpty ∨ most = some 0 then found
    else
      let next := distinct (last.flatMap fun p =>
        (step p).filter fun q => q.rest.length < p.rest.length)
      let next := next.filter fun p => !found.contains p
      repeats step fuel (most.map (· - 1)) next (next ++ found)

/-- The places that so many steps lead to. -/
def exactly (step : Place → List Place) : Nat → List Place → List Place
  | 0, ps => ps
  | n + 1, ps => exactly step n (distinct (ps.flatMap step))

/-- The places that repeated characters of a set lead to, the last first. -/
def runs (s : CharSet) (least : Nat) (most : Option Nat) (p : Place) : List Place :=
  let run := (p.rest.takeWhile s.mem).length
  let longest := match most with
    | some m => min m run
    | none => run
  ((List.range (longest + 1)).drop least).reverse.map p.forward

mutual

/-- The places that a part leads to from a place. -/
def after : Regex → Place → List Place
  | .set s, p =>
    match p.rest with
    | c :: _ => if s.mem c then [p.forward 1] else []
    | [] => []
  | .start, p => if p.before.isNone then [p] else []
  | .stop, p => if p.rest.isEmpty then [p] else []
  | .edge atStart atEnd, p =>
    let (before, next) := p.words
    if (atStart && !before && next) || (atEnd && before && !next) then [p] else []
  | .noEdge, p => let (before, next) := p.words; if before = next then [p] else []
  | .group index choices, p =>
    distinct <| (afterChoices choices p).map fun q =>
      q.remember index (p.rest.take (p.rest.length - q.rest.length))
  | .repeated part least most, p =>
    match part with
    | .set s => runs s least most p
    | part =>
      let first := exactly (after part) least [p]
      repeats (after part) (p.rest.length + 1) (most.map (· - least)) first first
  | .again index, p =>
    match p.captures.lookup index with
    | some text => if text.isPrefixOf p.rest then [p.forward text.length] else []
    | none => []

/-- The places that choices lead to from a place. -/
def afterChoices : List (List Regex) → Place → List Place
  | [], _ => []
  | c :: cs, p => afterParts c [p] ++ afterChoices cs p

/-- The places that parts in order lead to from places. -/
def afterParts : List Regex → List Place → List Place
  | [], ps => ps
  | r :: rs, ps => afterParts rs (distinct (ps.flatMap (after r)))

end

/-- A match: what stands before it, what it is, what stands after it, and what groups matched. -/
structure Found where
  before : Octets
  text : Octets
  after : Octets
  captures : Captures

/-- The place furthest on, the first of them. -/
def furthest : List Place → Option Place
  | [] => none
  | p :: ps => some (ps.foldl (fun p q => if q.rest.length < p.rest.length then q else p) p)

/-- The first match from a place on, with the text before it, newest character first. -/
def findFrom (rs : List Regex) (passed : Octets) (o : Octets) : Option Found :=
  match furthest (afterParts rs [⟨o, passed.head?, []⟩]) with
  | some p => some ⟨passed.reverse, o.take (o.length - p.rest.length), p.rest, p.captures⟩
  | none =>
    match o with
    | [] => none
    | c :: o => findFrom rs (c :: passed) o

/-- The first match in a text. -/
def find? (rs : List Regex) (o : Octets) : Option Found :=
  findFrom rs [] o

/-! ### Reading -/

/-- How expressions are read: with the extended meaning of characters, and with both cases of
letters the same. -/
structure Style where
  extended : Bool
  anyCase : Bool := false

/-- A character for itself. -/
def char (style : Style) (c : Char) : Regex := .set ⟨false, [(c, c)], style.anyCase⟩

/-- Any character. -/
def any : Regex := .set ⟨true, [], false⟩

/-- The ranges of a bracketed set up to its closing bracket, which is an ordinary character when it
comes first, and the rest. -/
def readRanges : Nat → (first : Bool) → Octets →
    Except RegexFault (List (Char × Char) × Octets)
  | 0, _, _ => .error .unmatchedBracket
  | _ + 1, _, [] => .error .unmatchedBracket
  | _ + 1, false, ']' :: o => .ok ([], o)
  | fuel + 1, _, '[' :: ':' :: o =>
    match CharSet.readNamed o with
    | some (rs, rest) => (readRanges fuel false rest).map fun (more, rest) => (rs ++ more, rest)
    | none => .error (if o.contains ']' then .noClass else .unmatchedBracket)
  | fuel + 1, _, a :: '-' :: b :: o =>
    if b = ']' then
      (readRanges fuel false (b :: o)).map fun (more, rest) => ((a, a) :: ('-', '-') :: more, rest)
    else if b < a then .error .badRange
    else (readRanges fuel false o).map fun (more, rest) => ((a, b) :: more, rest)
  | fuel + 1, _, a :: o =>
    (readRanges fuel false o).map fun (more, rest) => ((a, a) :: more, rest)

/-- The bracketed set in front of a text, after its opening bracket. -/
def readSet (style : Style) (o : Octets) : Except RegexFault (Regex × Octets) :=
  if o.isEmpty then .error .nothingInBracket
  else
  let (outside, o) := match o with
    | '^' :: o => (true, o)
    | o => (false, o)
  (readRanges (o.length + 1) true o).map fun (rs, rest) => (.set ⟨outside, rs, style.anyCase⟩, rest)

/-- The number in front of a text. -/
def readNumber (o : Octets) : Option Nat × Octets :=
  (Octets.toNat? (o.takeWhile Char.isDigit), o.dropWhile Char.isDigit)

/-- How often a part is repeated. -/
abbrev Bounds := Nat × Option Nat

/-- The bounds of a repetition in braces, after the opening one. -/
def readBounds (style : Style) (o : Octets) : Except RegexFault (Bounds × Octets) :=
  let finish : Bounds → Octets → Except RegexFault (Bounds × Octets) := fun b o =>
    let sound := match b with
      | (least, some most) => decide (least ≤ most)
      | (_, none) => true
    match style.extended, o with
    | true, '\x7d' :: o => if sound then .ok (b, o) else .error .badBraces
    | false, '\\' :: '\x7d' :: o => if sound then .ok (b, o) else .error .badBraces
    | _, [] => .error .unmatchedBrace
    | _, _ => .error .badBraces
  match readNumber o with
  | (least, ',' :: o) => let (most, o) := readNumber o; finish (least.getD 0, most) o
  | (some n, o) => finish (n, some n) o
  | (none, []) => .error .unmatchedBrace
  | (none, _) => .error .badBraces

/-- The repetition in front of a text, if there is one. -/
def readRepetition (style : Style) (o : Octets) : Except RegexFault (Option (Bounds × Octets)) :=
  match style.extended, o with
  | _, '*' :: o => .ok (some ((0, none), o))
  | true, '+' :: o => .ok (some ((1, none), o))
  | true, '?' :: o => .ok (some ((0, some 1), o))
  | true, '\x7b' :: c :: o =>
    if c.isDigit ∨ c = ',' then (readBounds style (c :: o)).map some else .ok none
  | false, '\\' :: '+' :: o => .ok (some ((1, none), o))
  | false, '\\' :: '?' :: o => .ok (some ((0, some 1), o))
  | false, '\\' :: '\x7b' :: o => (readBounds style o).map some
  | _, _ => .ok none

/-- A part with the repetitions behind it. -/
def withRepetitions (style : Style) : Nat → Regex → Octets → Except RegexFault (Regex × Octets)
  | 0, r, o => .ok (r, o)
  | fuel + 1, r, o => do
    match ← readRepetition style o with
    | some ((least, most), o) => withRepetitions style fuel (.repeated r least most) o
    | none => .ok (r, o)

/-- How a text goes on: a group opens, a group closes, a choice begins, or none of these. -/
inductive Turn where
  | opens (rest : Octets)
  | closes (rest : Octets)
  | chooses (rest : Octets)
  | other

/-- How a text goes on. -/
def turn (style : Style) (o : Octets) : Turn :=
  match style.extended, o with
  | true, '(' :: o => .opens o
  | true, ')' :: o => .closes o
  | true, '|' :: o => .chooses o
  | false, '\\' :: '(' :: o => .opens o
  | false, '\\' :: ')' :: o => .closes o
  | false, '\\' :: '|' :: o => .chooses o
  | _, _ => .other

/-- Whether a dollar sign in front of such a text means the end. -/
def endsHere (style : Style) (o : Octets) : Bool :=
  match turn style o with
  | .closes _ => true
  | .chooses _ => true
  | _ => o.isEmpty

/-- The ranges of the characters of words. -/
def wordRanges : List (Char × Char) := [('a', 'z'), ('A', 'Z'), ('0', '9'), ('_', '_')]

/-- The ranges of white space. -/
def spaceRanges : List (Char × Char) := [('\t', '\x0d'), (' ', ' ')]

/-- The part that a backslash and a character stand for. -/
def escaped (style : Style) (c : Char) : Regex :=
  match c with
  | 's' => .set ⟨false, spaceRanges, false⟩
  | 'S' => .set ⟨true, spaceRanges, false⟩
  | 'w' => .set ⟨false, wordRanges, false⟩
  | 'W' => .set ⟨true, wordRanges, false⟩
  | '<' => .edge true false
  | '>' => .edge false true
  | 'b' => .edge true true
  | 'B' => .noEdge
  | '\x60' => .start
  | '\'' => .stop
  | c =>
    match Text.digit? c with
    | some (n + 1) => .again (n + 1)
    | _ => char style c

/-- A single part in front of a text that opens no group. -/
def readPart (style : Style) (first : Bool) : Octets → Except RegexFault (Regex × Octets)
  | [] => .error .nothingBefore
  | '.' :: o => .ok (any, o)
  | '[' :: o => readSet style o
  | '^' :: o => .ok (if first || style.extended then .start else char style '^', o)
  | '$' :: o => .ok (if style.extended || endsHere style o then .stop else char style '$', o)
  | ['\\'] => .error .trailingBackslash
  | '\\' :: c :: o => .ok (escaped style c, o)
  | c :: o => .ok (char style c, o)

/-- Choices as far as they are read: the parts of the last one newest first, those before it, and
the number of the next group. -/
structure Choices where
  parts : List Regex := []
  before : List (List Regex) := []
  next : Nat

/-- All choices. -/
def Choices.all (c : Choices) : List (List Regex) := c.before ++ [c.parts.reverse]

/-- Choices up to the end of their group, and the rest. -/
def readChoices (style : Style) (inside : Bool) : Nat → Choices → Octets →
    Except RegexFault (Choices × Octets)
  | 0, _, _ => .error .unmatchedOpening
  | fuel + 1, c, o =>
    match turn style o with
    | .closes rest =>
      if inside then .ok (c, o)
      else if style.extended then
        readChoices style inside fuel { c with parts := char style ')' :: c.parts } rest
      else .error .unmatchedClosing
    | .chooses rest => readChoices style inside fuel ⟨[], c.all, c.next⟩ rest
    | .opens rest => do
      let (within, o) ← readChoices style true fuel ⟨[], [], c.next + 1⟩ rest
      match turn style o with
      | .closes o =>
        let (r, o) ← withRepetitions style o.length (.group c.next within.all) o
        readChoices style inside fuel { c with parts := r :: c.parts, next := within.next } o
      | _ => .error .unmatchedOpening
    | .other => do
      if o.isEmpty then .ok (c, o)
      else
        let anchored : Bool := match c.parts with
          | [] => true
          | [.start] => true
          | _ => false
        match o with
        | '*' :: rest =>
          if anchored && !style.extended then
            let (r, o) ← withRepetitions style rest.length (char style '*') rest
            readChoices style inside fuel { c with parts := r :: c.parts } o
          else if anchored then readChoices style inside fuel c rest
          else readChoices style inside fuel { c with parts := char style '*' :: c.parts } rest
        | o =>
          let (r, o) ← readPart style c.parts.isEmpty o
          let repeatable : Bool := match r with
            | .start => style.extended
            | _ => true
          let (r, o) ← withRepetitions style (if repeatable then o.length else 0) r o
          readChoices style inside fuel { c with parts := r :: c.parts } o

/-- The greatest number of a group in a text of references. -/
def references : Octets → Nat
  | '\\' :: c :: o => max (match Text.digit? c with | some n => n | none => 0) (references o)
  | _ :: o => references o
  | [] => 0

/-- The expression of a text; the whole is group 0. -/
def read (style : Style) (o : Octets) : Except RegexFault (List Regex) := do
  let (c, _) ← readChoices style false (2 * o.length + 2) { next := 1 } o
  if c.next ≤ references o then .error .badReference else .ok [.group 0 c.all]

/-- The expression that matches just a text. -/
def literal (anyCase : Bool) (o : Octets) : List Regex :=
  [.group 0 [o.map (char ⟨false, anyCase⟩)]]

/-- How many groups an expression has is one less than the number of the next one; this is how many
are opened in a text. -/
def groupCount (style : Style) (o : Octets) : Nat :=
  match readChoices style false (2 * o.length + 2) { next := 1 } o with
  | .ok (c, _) => c.next - 1
  | .error _ => 0

end Regex
end Shell
end ImagePolicy
