/-
# Patterns for file names

Sets of characters, and the patterns that file names are matched with: `*`, `?`, and bracketed sets.
A quoted character stands for itself.

Key definitions: `Shell.CharSet`, `Shell.globOf`, `Shell.globMatches`.
-/
import ImagePolicy.Shell.Octets

namespace ImagePolicy
namespace Shell

/-! ### Sets of characters -/

/-- A set of characters as ranges, or what lies outside of them; letters of both cases may count as
the same. -/
structure CharSet where
  outside : Bool
  ranges : List (Char × Char)
  anyCase : Bool := false
  deriving DecidableEq, Repr

namespace CharSet

/-- Whether a character is in the set. -/
def mem (s : CharSet) (c : Char) : Bool :=
  let within : Char → Bool := fun c => s.ranges.any fun (low, high) => low ≤ c && c ≤ high
  (within c || (s.anyCase && (within c.toLower || within c.toUpper))) != s.outside

/-- The ranges of a named class. -/
def named? (name : String) : Option (List (Char × Char)) :=
  match name with
  | "digit" => some [('0', '9')]
  | "lower" => some [('a', 'z')]
  | "upper" => some [('A', 'Z')]
  | "alpha" => some [('a', 'z'), ('A', 'Z')]
  | "alnum" => some [('a', 'z'), ('A', 'Z'), ('0', '9')]
  | "xdigit" => some [('0', '9'), ('a', 'f'), ('A', 'F')]
  | "space" => some [('\t', '\x0d'), (' ', ' ')]
  | "blank" => some [('\t', '\t'), (' ', ' ')]
  | "cntrl" => some [('\x00', '\x1f'), ('\x7f', '\x7f')]
  | "punct" => some [('!', '/'), (':', '@'), ('[', '\x60'), ('\x7b', '~')]
  | "print" => some [(' ', '~')]
  | "graph" => some [('!', '~')]
  | _ => none

/-- The named class in front of a text, after its `[:`. -/
def readNamed (o : Octets) : Option (List (Char × Char) × Octets) :=
  match (Text.splitFirst ':' o) with
  | some (name, ']' :: rest) => (named? (.ofList name)).map fun rs => (rs, rest)
  | _ => none

end CharSet

/-! ### File names -/

/-- A part of a file-name pattern. -/
inductive GlobPart where
  | many
  | one
  | set (s : CharSet)
  | char (c : Char)
  deriving DecidableEq, Repr

/-- A text whose characters are quoted or not. -/
abbrev QuotedText := List (Char × Bool)

/-- The ranges of a bracketed set up to its closing bracket, which is an ordinary character when it
comes first, and how many characters they take. -/
def globRanges : Nat → (first : Bool) → QuotedText → Option (List (Char × Char) × Nat)
  | 0, _, _ => none
  | _ + 1, _, [] => none
  | fuel + 1, first, (c, quoted) :: o =>
    if c = ']' ∧ !quoted ∧ !first then some ([], 1)
    else if c = '/' then none
    else match c, quoted, o with
      | '[', false, (':', false) :: rest =>
        match CharSet.readNamed (rest.map Prod.fst) with
        | some (rs, after) =>
          let taken := rest.length - after.length
          (globRanges fuel false (rest.drop taken)).map fun (more, n) => (rs ++ more, n + taken + 2)
        | none =>
          (globRanges fuel false o).map fun (more, n) => (('[', '[') :: more, n + 1)
      | low, _, ('-', false) :: (high, highQuoted) :: rest =>
        if high = ']' ∧ !highQuoted then
          (globRanges fuel false o).map fun (more, n) => ((low, low) :: more, n + 1)
        else (globRanges fuel false rest).map fun (more, n) => ((low, high) :: more, n + 3)
      | c, _, o => (globRanges fuel false o).map fun (more, n) => ((c, c) :: more, n + 1)

/-- The bracketed set in front of a text, after its opening bracket, and how many characters it
takes. -/
def globSet (o : QuotedText) : Option (CharSet × Nat) :=
  let read : QuotedText → Option (List (Char × Char) × Nat) := fun o =>
    globRanges (o.length + 1) true o
  match o with
  | ('!', false) :: o => (read o).map fun (rs, n) => ({ outside := true, ranges := rs }, n + 1)
  | ('^', false) :: o => (read o).map fun (rs, n) => ({ outside := true, ranges := rs }, n + 1)
  | o => (read o).map fun (rs, n) => ({ outside := false, ranges := rs }, n)

/-- The parts of a file-name pattern. A quoted character stands for itself, and so does one after an
unquoted backslash. -/
def globParts : Nat → QuotedText → List GlobPart
  | 0, _ => []
  | _ + 1, [] => []
  | fuel + 1, (c, true) :: o => .char c :: globParts fuel o
  | fuel + 1, ('*', false) :: o => .many :: globParts fuel o
  | fuel + 1, ('?', false) :: o => .one :: globParts fuel o
  | fuel + 1, ('\\', false) :: (c, _) :: o => .char c :: globParts fuel o
  | fuel + 1, ('[', false) :: o =>
    match globSet o with
    | some (s, n) => .set s :: globParts fuel (o.drop n)
    | none => .char '[' :: globParts fuel o
  | fuel + 1, (c, false) :: o => .char c :: globParts fuel o

/-- A file-name pattern. -/
def globOf (pattern : QuotedText) : List GlobPart :=
  globParts (pattern.length + 1) pattern

/-- The ends of a text, the longest first. -/
def suffixes : Octets → List Octets
  | [] => [[]]
  | c :: o => (c :: o) :: suffixes o

/-- Whether a file-name pattern matches a whole text. -/
def globMatches : List GlobPart → Octets → Bool
  | [], o => o.isEmpty
  | .many :: ps, o => (suffixes o).any (globMatches ps)
  | _ :: _, [] => false
  | .one :: ps, _ :: o => globMatches ps o
  | .set s :: ps, c :: o => s.mem c && globMatches ps o
  | .char p :: ps, c :: o => p = c && globMatches ps o

/-- Whether a text has an unquoted character that makes it a pattern. -/
def isPattern (o : QuotedText) : Bool :=
  o.any fun (c, quoted) => !quoted && ['*', '?', '['].contains c

end Shell
end ImagePolicy
