/-
# Lines that match

`grep` and its likes: writes the lines of its operands that match one of some patterns, the matching
parts of them, their number, or only whether there are any.

Key definitions: `Shell.Matcher`, `Shell.selectLines`.
-/
import ImagePolicy.Shell.Tool.Text
import ImagePolicy.Shell.Regex

namespace ImagePolicy
namespace Shell

/-- The kinds of patterns. -/
inductive PatternKind where
  | basic
  | extended
  | fixed
  deriving DecidableEq, Repr

/-- Patterns, and how much of a line or a word has to match. -/
structure Matcher where
  patterns : List (List Regex)
  wholeLine : Bool
  wholeWord : Bool

namespace Matcher

/-- The expressions of patterns. -/
def read (kind : PatternKind) (anyCase : Bool) (patterns : List Octets) :
    Except RegexFault (List (List Regex)) :=
  patterns.mapM fun p =>
    match kind with
    | .fixed => .ok (Regex.literal anyCase p)
    | kind => Regex.read ⟨kind = .extended, anyCase⟩ p

/-- Whether a match stands between characters that belong to no word. -/
def isWord (f : Regex.Found) : Bool :=
  !f.before.getLast?.any isNameChar && !f.after.head?.any isNameChar

/-- The first match of an expression as a word, with the text before it, newest character first. -/
def findWord (rs : List Regex) (passed : Octets) (o : Octets) : Option Regex.Found :=
  let places := Regex.afterParts rs [⟨o, passed.head?, []⟩]
  let found := places.map fun p =>
    Regex.Found.mk passed.reverse (o.take (o.length - p.rest.length)) p.rest p.captures
  match (found.filter isWord).mergeSort fun a b => decide (b.text.length ≤ a.text.length) with
  | f :: _ => some f
  | [] =>
    match o with
    | [] => none
    | c :: o => findWord rs (c :: passed) o

/-- The first match in a line of one of the patterns, the longest of them, from a place on. -/
def find? (m : Matcher) (passed line : Octets) : Option Regex.Found :=
  let found := m.patterns.filterMap fun rs =>
    if m.wholeLine then Regex.findFrom (.start :: rs ++ [.stop]) passed line
    else if m.wholeWord then findWord rs passed line
    else Regex.findFrom rs passed line
  let better : Regex.Found → Regex.Found → Bool := fun a b =>
    decide (a.before.length < b.before.length) ||
      (a.before.length = b.before.length && decide (b.text.length ≤ a.text.length))
  (found.mergeSort better).head?

/-- Whether a line matches. -/
def holds (m : Matcher) (line : Octets) : Bool :=
  (m.find? [] line).isSome

/-- The parts of a line that match. -/
def parts (m : Matcher) : Nat → Octets → Octets → List Octets
  | 0, _, _ => []
  | fuel + 1, passed, line =>
    match m.find? passed line with
    | none => []
    | some f =>
      let passed := f.text.reverse ++ f.before.reverse
      if f.text.isEmpty then
        match f.after with
        | [] => []
        | c :: o => parts m fuel (c :: passed) o
      else f.text :: parts m fuel passed f.after

end Matcher

/-! ### Contexts -/

/-- Which lines are written, by their places: those chosen with so many before and after each. -/
def withContext (before after count : Nat) (places : List Nat) : List (Nat × Bool) :=
  (List.range count).filterMap fun i =>
    if places.contains i then some (i, true)
    else if places.any fun p => (i < p && p ≤ i + before) || (p < i && i ≤ p + after) then
      some (i, false)
    else none

/-- Whether a text is a number of lines of context. -/
def isCount (o : Octets) : Bool := !o.isEmpty && o.all Char.isDigit

/-- What is asked for beside the patterns. -/
structure Selection where
  options : Options
  matcher : Matcher
  named : Bool
  before : Nat
  after : Nat
  most : Option Nat

namespace Selection

/-- Whether there is context to be written. -/
def hasContext (s : Selection) : Bool :=
  0 < s.before || 0 < s.after

/-- What stands before a line that is written. -/
def label (s : Selection) (name : Octets) (number : Nat) (isMatch : Bool) : Octets :=
  let mark := if isMatch then ':' else '-'
  (if s.named then name ++ [mark] else []) ++
    (if s.options.has 'n' then Octets.ofNat number ++ [mark] else [])

/-- The places of the lines that are chosen. -/
def places (s : Selection) (lines : List Octets) : List Nat :=
  let all := lines.zipIdx.filterMap fun (l, i) =>
    if s.matcher.holds l != s.options.has 'v' then some i else none
  match s.most with
  | some n => all.take n
  | none => all

/-- The text of the lines that are chosen, with their context. -/
def text (s : Selection) (name : Octets) (lines : List Octets) (places : List Nat) : Octets :=
  if s.options.has 'o' then
    if s.options.has 'v' then []
    else (places.flatMap fun i =>
      let line := lines[i]?.getD []
      (s.matcher.parts (line.length + 2) [] line).flatMap fun part =>
        s.label name (i + 1) true ++ part ++ ['\n'])
  else
    let last := (places.getLast?.map (· + s.after + 1)).getD 0
    let shown := withContext s.before s.after (min lines.length last) places
    let step : Option Nat × List Octets → Nat × Bool → Option Nat × List Octets :=
      fun (before, done) (i, isMatch) =>
        let gap := match before with
          | some b => s.hasContext && b + 1 < i
          | none => false
        let line := s.label name (i + 1) isMatch ++ lines[i]?.getD [] ++ ['\n']
        (some i, ((if gap then "--\n".toList else []) ++ line) :: done)
    (shown.foldl step (none, [])).2.reverse.flatten

/-- What is written for a content, and whether a line of it is chosen. -/
def report (s : Selection) (name content : Octets) : Octets × Bool :=
  let lines := Octets.lines content
  let places := s.places lines
  let o := s.options
  let found := !places.isEmpty
  if o.has 'q' then ([], found)
  else if o.has 'l' then (if found then name ++ ['\n'] else [], found)
  else if o.has 'L' then (if found then [] else name ++ ['\n'], !found)
  else if o.has 'c' then
    ((if s.named then name ++ [':'] else []) ++ Octets.ofNat places.length ++ ['\n'], found)
  else (s.text name lines places, found)

end Selection

/-! ### Operands -/

/-- The files that a directory leads to, each as it is written. -/
def filesBelow (d : Disk) : Nat → Path → Octets → List Octets
  | 0, _, _ => []
  | fuel + 1, p, written =>
    (d.names p).flatMap fun name =>
      let text := written ++ ['/'] ++ Octets.ofString name
      let path := p ++ [name]
      if d.isDirectory path then filesBelow d fuel path text else [text]

/-- The operands with the files that directories lead to in their place. -/
def withFilesBelow (g : Given) (operands : List Octets) : List Octets :=
  operands.flatMap fun name =>
    match g.resolve? name with
    | some p =>
      if g.disk.isDirectory p then filesBelow g.disk (g.disk.entries.length + 1) p name else [name]
    | none => [name]

/-- A number of lines after a hyphen as the option it stands for. -/
def withContextOption (as : List Octets) : List Octets :=
  as.map fun a =>
    match a with
    | '-' :: c :: cs => if isCount (c :: cs) then '-' :: 'C' :: c :: cs else a
    | a => a

/-- The options that are known. -/
def selectionNames : OptionNames where
  letters := "EFGPivwxclLnoqshHrRzaUbTyIe:f:m:A:B:C:X:Z:"
  words :=
    [("extended-regexp", 'E'), ("fixed-strings", 'F'), ("basic-regexp", 'G'), ("perl-regexp", 'P'),
      ("ignore-case", 'i'), ("invert-match", 'v'), ("word-regexp", 'w'), ("line-regexp", 'x'),
      ("count", 'c'), ("files-with-matches", 'l'), ("files-without-match", 'L'),
      ("line-number", 'n'), ("only-matching", 'o'), ("quiet", 'q'), ("silent", 'q'),
      ("no-messages", 's'), ("no-filename", 'h'), ("with-filename", 'H'), ("recursive", 'r'),
      ("regexp", 'e'), ("file", 'f'), ("max-count", 'm'), ("after-context", 'A'),
      ("before-context", 'B'), ("context", 'C'), ("text", 'a'), ("color", 'Z'), ("colour", 'Z')]

/-- Writes lines that match. The name of the tool decides the kind of the patterns unless an option
does. -/
def selectLines (tool : String) : Tool := fun g =>
  let g := { g with arguments := withContextOption g.arguments }
  match readOptions selectionNames g.arguments.length g.arguments with
  | .error e =>
    g.complain 2 (tool.toList ++ ": ".toList ++ e ++ "\nUsage: ".toList ++ tool.toList ++
      " [OPTION]... PATTERNS [FILE]...\nTry '".toList ++ tool.toList ++
      " --help' for more information.".toList)
  | .ok (o, operands) =>
    let files := (o.values 'f').map fun name => (name, g.read name)
    let unreadable := files.findSome? fun (name, r) =>
      match r with
      | .error e => some (about tool name e.message)
      | .ok _ => none
    let given := (o.values 'e').flatMap (Text.split '\n') ++ files.flatMap fun (_, r) =>
      match r with
      | .ok text => Octets.lines text
      | .error _ => []
    let fromOptions := o.has 'e' || o.has 'f'
    match unreadable, fromOptions, operands with
    | some e, _, _ => g.complain 2 e
    | none, false, [] =>
      g.complain 2
        ("Usage: ".toList ++ tool.toList ++ " [OPTION]... PATTERNS [FILE]...\nTry '".toList ++
          tool.toList ++ " --help' for more information.".toList)
    | none, _, operands =>
      let patterns := if fromOptions then given else Text.split '\n' (operands.headD [])
      let operands := if fromOptions then operands else operands.drop 1
      let usual : PatternKind :=
        if tool = "egrep" then .extended else if tool = "fgrep" then .fixed else .basic
      let kind := (o.reverse.findSome? fun (c, _) => match c with
        | 'E' => some PatternKind.extended
        | 'P' => some .extended
        | 'F' => some .fixed
        | 'G' => some .basic
        | _ => none).getD usual
      let count : Char → Except Octets (Option Nat) := fun c =>
        match o.value? c with
        | none => .ok none
        | some v => if isCount v then .ok (Octets.toNat? v) else .error v
      match Matcher.read kind (o.hasAny "iy") patterns, count 'A', count 'B', count 'C',
        count 'm' with
      | .error e, _, _, _, _ => g.complain 2 (tool.toList ++ ": ".toList ++ e.message.toList)
      | _, .error v, _, _, _ => g.complain 2 (about tool v "invalid context length argument".toList)
      | _, _, .error v, _, _ => g.complain 2 (about tool v "invalid context length argument".toList)
      | _, _, _, .error v, _ => g.complain 2 (about tool v "invalid context length argument".toList)
      | _, _, _, _, .error _ => g.complain 2 (tool.toList ++ ": invalid max count".toList)
      | .ok regexes, .ok after, .ok before, .ok around, .ok most =>
        let deep := o.hasAny "rR"
        let operands := if operands.isEmpty then (if deep then [['.']] else [['-']]) else operands
        let deepest := if deep then withFilesBelow g operands else operands
        let isDeep := deep && operands.any fun name =>
          g.node? name = some .directory
        let selection : Selection :=
          { options := o
            matcher := ⟨regexes, o.has 'x', o.has 'w'⟩
            named := o.has 'H' || (!o.has 'h' && (1 < operands.length || isDeep))
            before := (before.or around).getD 0
            after := (after.or around).getD 0
            most }
        let step : Result × Bool × Bool → Octets → Result × Bool × Bool :=
            fun (r, found, failed) name =>
          if found && o.has 'q' then (r, found, failed)
          else match g.read name with
          | .error e =>
            (if o.has 's' then r else r.note (about tool name e.message), found, true)
          | .ok content =>
            let shownName := if Given.isInput name then "(standard input)".toList else name
            let (text, chosen) := selection.report shownName content
            (r.say text, found || chosen, failed)
        let (r, found, failed) := deepest.foldl step (g.finish 0, false, false)
        let status := if found && (o.has 'q' || !failed) then 0 else if failed then 2 else 1
        let r := { r with status }
        if deepest.any Given.isInput then r.takeAll g else r

end Shell
end ImagePolicy
