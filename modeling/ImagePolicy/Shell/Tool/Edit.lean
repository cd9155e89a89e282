/-
# Scripts that edit lines

The edits of `sed` as they are written: commands with the lines that they are for, in blocks, with
labels to go to. Reading a script fails at a character, which is counted.

Key definitions: `Shell.Edit`, `Shell.Lines`, `Shell.EditStep`, `Shell.Edit.read`.
-/
import ImagePolicy.Shell.Regex

namespace ImagePolicy
namespace Shell

/-- An address of lines. The empty expression stands for the one used last. -/
inductive LineAddress where
  | number (n : Nat)
  | everyNth (first step : Nat)
  | final
  | pattern (regex : Option (List Regex))

/-- Where a range of lines ends. -/
inductive RangeEnd where
  | address (a : LineAddress)
  | after (n : Nat)
  | multiple (n : Nat)

/-- The lines that an edit is for. -/
inductive Lines where
  | every
  | at (a : LineAddress)
  | range (first : LineAddress) (last : RangeEnd)

/-- A change of the case of what follows in a replacement. -/
inductive CaseChange where
  | upper
  | lower
  | upperOnce
  | lowerOnce
  | same
  deriving DecidableEq, Repr

/-- A part of a replacement. -/
inductive ReplacementPart where
  | text (o : Octets)
  | group (index : Nat)
  | change (c : CaseChange)

/-- A substitution: what is looked for, what it is replaced by, from which match on, and whether for
all after it, whether the line is printed, and the file it is written to. -/
structure Substitution where
  pattern : Option (List Regex)
  replacement : List ReplacementPart
  first : Nat
  all : Bool
  printed : Bool
  file : Option Octets

/-- An edit. -/
inductive Edit where
  | open
  | close
  | label (name : Octets)
  | print
  | printFirst
  | number
  | unambiguous
  | delete
  | deleteFirst
  | next
  | appendNext
  | quit (status : Nat) (silent : Bool)
  | append (text : Octets)
  | insert (text : Octets)
  | change (text : Octets)
  | readFile (name : Octets)
  | writeFile (name : Octets)
  | writeFirst (name : Octets)
  | branch (label : Octets)
  | branchIf (substituted : Bool) (label : Octets)
  | hold
  | holdMore
  | fetch
  | fetchMore
  | swap
  | empty
  | exchange (pairs : List (Char × Char))
  | substitute (s : Substitution)

/-- An edit with the lines it is for, or all others. -/
structure EditStep where
  lines : Lines
  inverted : Bool
  edit : Edit

namespace Edit

/-- A step in reading a script; it fails with a message, and what is left tells where. -/
abbrev Scan (α : Type) := StateT Octets (Except (String × Octets)) α

/-- Fails at the character that was read last. -/
def fail {α : Type} (message : String) : Scan α := do
  throw (message, ← get)

/-- Fails after everything was read. -/
def failAtEnd {α : Type} (message : String) : Scan α :=
  throw (message, [])

/-- Takes the characters in front that have a property. -/
def scanWhile (p : Char → Bool) : Scan Octets := do
  let o ← get
  set (o.dropWhile p)
  return o.takeWhile p

/-- Takes the next character. -/
def next? : Scan (Option Char) := do
  match ← get with
  | [] => return none
  | c :: o => set o; return some c

/-- Whether a character is a blank. -/
def isBlank (c : Char) : Bool := c = ' ' || c = '\t'

/-- How many characters a bracketed set takes after its opening bracket, the closing one included;
none if it is not closed. -/
def bracketLength (o : Octets) : Option Nat :=
  let front := match o with
    | '^' :: ']' :: _ => 2
    | '^' :: _ => 1
    | ']' :: _ => 1
    | _ => 0
  let rec close : Nat → Octets → Option Nat
    | 0, _ => none
    | _, [] => none
    | fuel + 1, '[' :: ':' :: o =>
      match Text.splitFirst ']' o with
      | some (name, rest) => (close fuel rest).map (· + name.length + 3)
      | none => none
    | fuel + 1, c :: o => if c = ']' then some 1 else (close fuel o).map (· + 1)
  (close (o.length + 1) (o.drop front)).map (· + front)

/-- The text up to a delimiter. A backslash before the delimiter goes, and in an expression one
before `n` stands for a line break; there the delimiter may also stand in brackets. -/
def untilDelimiter (isRegex : Bool) (delimiter : Char) : Nat → Octets → Option (Octets × Octets)
  | 0, _ => none
  | _, [] => none
  | fuel + 1, '\\' :: c :: o =>
    (untilDelimiter isRegex delimiter fuel o).map fun (text, rest) =>
      (if c = delimiter then c :: text
        else if isRegex && c = 'n' then '\n' :: text
        else '\\' :: c :: text, rest)
  | fuel + 1, c :: o =>
    if c = delimiter then some ([], o)
    else if c = '\n' ∧ isRegex then none
    else if c = '[' ∧ isRegex then
      match bracketLength o with
      | none => none
      | some n =>
        let inside := lineBreaks (o.take n)
        (untilDelimiter isRegex delimiter fuel (o.drop n)).map fun (text, rest) =>
          (c :: inside ++ text, rest)
    else (untilDelimiter isRegex delimiter fuel o).map fun (text, rest) => (c :: text, rest)
where
  /-- A text with its escaped line breaks taken. -/
  lineBreaks : Octets → Octets
    | '\\' :: 'n' :: o => '\n' :: lineBreaks o
    | c :: o => c :: lineBreaks o
    | [] => []

/-- The text up to a delimiter in what is left, which goes on behind it. -/
def scanDelimited (isRegex : Bool) (delimiter : Char) (unfinished : String) : Scan Octets := do
  let o ← get
  match untilDelimiter isRegex delimiter (o.length + 1) o with
  | none => failAtEnd unfinished
  | some (text, rest) =>
    set rest
    return text

/-- A text with the escapes of control characters in it taken. -/
def withControls : Octets → Octets
  | '\\' :: c :: o =>
    match c with
    | 't' => '\t' :: withControls o
    | 'f' => '\x0c' :: withControls o
    | 'v' => '\x0b' :: withControls o
    | 'a' => '\x07' :: withControls o
    | 'r' => '\r' :: withControls o
    | c => '\\' :: c :: withControls o
  | c :: o => c :: withControls o
  | [] => []

/-- The expression of a text; the empty text stands for the one used last. -/
def regexOf (style : Regex.Style) (o : Octets) : Scan (Option (List Regex)) := do
  if o.isEmpty then return none
  else match Regex.read style (withControls o) with
    | .ok rs => return some rs
    | .error e => fail e.message

/-! ### Addresses -/

/-- The number in front. -/
def scanNumber : Scan (Option Nat) :=
  return Octets.toNat? (← scanWhile Char.isDigit)

/-- The expression of an address after its delimiter, with the flags behind it. -/
def addressRegex (extended : Bool) (delimiter : Char) : Scan LineAddress := do
  let text ← scanDelimited true delimiter "unterminated address regex"
  let flags ← scanWhile fun c => c = 'I' || c = 'M'
  return .pattern (← regexOf ⟨extended, flags.contains 'I'⟩ text)

/-- An address, if there is one. -/
def address? (extended : Bool) : Scan (Option LineAddress) := do
  match ← get with
  | '$' :: o => set o; return some .final
  | '/' :: o => set o; return some (← addressRegex extended '/')
  | '\\' :: c :: o => set o; return some (← addressRegex extended c)
  | c :: _ =>
    if c.isDigit then
      let n := (← scanNumber).getD 0
      let _ ← scanWhile isBlank
      match ← get with
      | '~' :: o =>
        set o
        return some (.everyNth n ((← scanNumber).getD 0))
      | _ => return some (.number n)
    else return none
  | [] => return none

/-- The end of a range. -/
def rangeEnd (extended : Bool) : Scan RangeEnd := do
  match ← get with
  | '+' :: o => set o; return .after ((← scanNumber).getD 0)
  | '~' :: o => set o; return .multiple ((← scanNumber).getD 0)
  | _ =>
    match ← address? extended with
    | some a => return .address a
    | none =>
      let _ ← next?
      fail "unexpected `,'"

/-- The lines that an edit is for, and whether it is for the others. -/
def scanLines (extended : Bool) : Scan (Lines × Bool) := do
  let lines ← match ← address? extended with
    | none => pure Lines.every
    | some a =>
      let _ ← scanWhile isBlank
      match ← get with
      | ',' :: o =>
        set o
        let _ ← scanWhile isBlank
        let last ← rangeEnd extended
        match a, last with
        | .number 0, .address (.pattern _) => pure (.range a last)
        | .number 0, _ => fail "invalid usage of line address 0"
        | a, last => pure (.range a last)
      | _ =>
        match a with
        | .number 0 => fail "invalid usage of line address 0"
        | a => pure (.at a)
  let _ ← scanWhile isBlank
  let marks ← scanWhile fun c => c = '!' || isBlank c
  return (lines, marks.contains '!')

/-! ### Replacements -/

/-- The parts of a replacement. -/
def replacementParts : Octets → List ReplacementPart
  | [] => []
  | '&' :: o => .group 0 :: replacementParts o
  | '\\' :: c :: o =>
    let change : Option CaseChange := match c with
      | 'U' => some .upper
      | 'L' => some .lower
      | 'u' => some .upperOnce
      | 'l' => some .lowerOnce
      | 'E' => some .same
      | _ => none
    match Text.digit? c, change, c with
    | some n, _, _ => .group n :: replacementParts o
    | none, some change, _ => .change change :: replacementParts o
    | none, none, 'n' => .text ['\n'] :: replacementParts o
    | none, none, 't' => .text ['\t'] :: replacementParts o
    | none, none, c => .text [c] :: replacementParts o
  | c :: o => .text [c] :: replacementParts o

/-- The greatest group that a replacement refers to. -/
def greatestGroup (ps : List ReplacementPart) : Nat :=
  ps.foldl (fun n p => match p with | .group i => max n i | _ => n) 0

/-- The flags of a substitution as far as they are read. -/
structure Flags where
  all : Bool := false
  printed : Bool := false
  anyCase : Bool := false
  first : Option Nat := none
  file : Option Octets := none

/-- The name of a file, up to the end of the line. -/
def scanFileName : Scan Octets := do
  let _ ← scanWhile isBlank
  let name ← scanWhile (· ≠ '\n')
  if name.isEmpty then fail "missing filename in r/R/w/W commands" else return name

/-- The flags behind a substitution, up to what ends it. -/
def scanFlags : Nat → Flags → Scan Flags
  | 0, f => return f
  | fuel + 1, f => do
    match ← get with
    | 'g' :: o =>
      set o
      if f.all then fail "multiple `g' options to `s' command"
      else scanFlags fuel { f with all := true }
    | 'p' :: o =>
      set o
      if f.printed then fail "multiple `p' options to `s' command"
      else scanFlags fuel { f with printed := true }
    | 'w' :: o =>
      set o
      return { f with file := some (← scanFileName) }
    | c :: o =>
      if c = 'i' ∨ c = 'I' then set o; scanFlags fuel { f with anyCase := true }
      else if c = 'm' ∨ c = 'M' then set o; scanFlags fuel f
      else if c.isDigit then
        let n := (← scanNumber).getD 0
        if n = 0 then fail "number option to `s' command may not be zero"
        else if f.first.isSome then fail "multiple number options to `s' command"
        else scanFlags fuel { f with first := some n }
      else if c = '\n' ∨ c = ';' ∨ c = '\x7d' ∨ c = '#' ∨ isBlank c then return f
      else
        set o
        fail "unknown option to `s'"
    | [] => return f

/-- A substitution after its letter. -/
def scanSubstitution (extended : Bool) : Scan Edit := do
  match ← next? with
  | none => fail "unterminated `s' command"
  | some delimiter =>
    if delimiter = '\n' ∨ delimiter = '\\' then failAtEnd "unterminated `s' command"
    else
      let pattern ← scanDelimited true delimiter "unterminated `s' command"
      let replacement ← scanDelimited false delimiter "unterminated `s' command"
      let f ← scanFlags ((← get).length + 1) {}
      let style : Regex.Style := ⟨extended, f.anyCase⟩
      let regex ← regexOf style pattern
      let parts := replacementParts replacement
      let greatest := greatestGroup parts
      if regex.isSome ∧ Regex.groupCount style (withControls pattern) < greatest then
        fail ("invalid reference \\" ++ toString greatest ++ " on `s' command's RHS")
      else
        return .substitute ⟨regex, parts, f.first.getD 1, f.all, f.printed, f.file⟩

/-- The characters of a side of an exchange, without its escapes. -/
def exchangeSide : Octets → Octets
  | '\\' :: 'n' :: o => '\n' :: exchangeSide o
  | '\\' :: 't' :: o => '\t' :: exchangeSide o
  | '\\' :: '\\' :: o => '\\' :: exchangeSide o
  | c :: o => c :: exchangeSide o
  | [] => []

/-- An exchange of characters after its letter. -/
def scanExchange : Scan Edit := do
  match ← next? with
  | none => failAtEnd "unterminated `y' command"
  | some delimiter =>
    let source := exchangeSide (← scanDelimited false delimiter "unterminated `y' command")
    let image := exchangeSide (← scanDelimited false delimiter "unterminated `y' command")
    if source.length = image.length then return .exchange (source.zip image)
    else fail "strings for `y' command are different lengths"

/-! ### Steps -/

/-- A text up to a line break without a backslash before it, without its backslashes. -/
def textLines : Octets → Octets × Octets
  | [] => ([], [])
  | '\\' :: c :: o => let (text, rest) := textLines o; (c :: text, rest)
  | '\n' :: o => ([], o)
  | c :: o => let (text, rest) := textLines o; (c :: text, rest)

/-- The text of an edit that adds it: on the same line, or after a backslash on the next ones. -/
def scanText : Scan Octets := do
  let _ ← scanWhile isBlank
  match ← get with
  | [] => failAtEnd "expected \\ after `a', `c' or `i'"
  | '\\' :: o =>
    let o := match o.dropWhile isBlank with
      | '\n' :: o => o
      | _ => o.dropWhile isBlank
    let (text, rest) := textLines o
    set rest
    return text ++ ['\n']
  | o =>
    let (text, rest) := textLines o
    set rest
    return text ++ ['\n']

/-- What may stand behind an edit: blanks, and what ends it. -/
def scanEnd (e : Edit) : Scan Edit := do
  let _ ← scanWhile isBlank
  match ← get with
  | [] => return e
  | c :: o =>
    if c = ';' ∨ c = '\n' then set o; return e
    else if c = '\x7d' ∨ c = '#' then return e
    else
      set o
      fail "extra characters after command"

/-- A label: up to blanks or what ends it. -/
def scanLabel : Scan Octets := do
  let _ ← scanWhile isBlank
  let name ← scanWhile fun c => c ≠ '\n' && c ≠ ';'
  return (name.reverse.dropWhile isBlank).reverse

/-- The edit of a letter. -/
def scanEdit (extended : Bool) (letter : Char) : Scan Edit :=
  match letter with
  | '\x7b' => return .open
  | '\x7d' => scanEnd .close
  | '=' => scanEnd .number
  | 'a' => return .append (← scanText)
  | 'i' => return .insert (← scanText)
  | 'c' => return .change (← scanText)
  | ':' => do
    let _ ← scanWhile isBlank
    let name ← scanWhile fun c => !isSpaceLike c && c ≠ ';'
    if name.isEmpty then fail "\":\" lacks a label" else return .label name
  | 'b' => do scanEnd (.branch (← scanLabel))
  | 't' => do scanEnd (.branchIf true (← scanLabel))
  | 'T' => do scanEnd (.branchIf false (← scanLabel))
  | 'd' => scanEnd .delete
  | 'D' => scanEnd .deleteFirst
  | 'g' => scanEnd .fetch
  | 'G' => scanEnd .fetchMore
  | 'h' => scanEnd .hold
  | 'H' => scanEnd .holdMore
  | 'l' => scanEnd .unambiguous
  | 'n' => scanEnd .next
  | 'N' => scanEnd .appendNext
  | 'p' => scanEnd .print
  | 'P' => scanEnd .printFirst
  | 'q' => do
    let _ ← scanWhile isBlank
    scanEnd (.quit ((← scanNumber).getD 0) false)
  | 'Q' => do
    let _ ← scanWhile isBlank
    scanEnd (.quit ((← scanNumber).getD 0) true)
  | 'r' => return .readFile (← scanFileName)
  | 'w' => return .writeFile (← scanFileName)
  | 'W' => return .writeFirst (← scanFileName)
  | 'x' => scanEnd .swap
  | 'z' => scanEnd .empty
  | 'y' => do scanEnd (← scanExchange)
  | 's' => do scanEnd (← scanSubstitution extended)
  | c => fail ("unknown command: `" ++ String.ofList [c] ++ "'")
where
  /-- Whether a character is white space. -/
  isSpaceLike (c : Char) : Bool := c = ' ' || ('\t' ≤ c && c ≤ '\x0d')

/-- The steps of a script, with so many blocks open. -/
def scanSteps (extended : Bool) : Nat → (depth : Nat) → Scan (List EditStep)
  | 0, _ => return []
  | fuel + 1, depth => do
    let _ ← scanWhile fun c => isBlank c || c = ';' || c = '\n'
    match ← get with
    | [] => if 0 < depth then throw ("unmatched `\x7b'", []) else return []
    | '#' :: _ =>
      let _ ← scanWhile (· ≠ '\n')
      scanSteps extended fuel depth
    | _ =>
      let (lines, inverted) ← scanLines extended
      let addressed : Bool := match lines with
        | .every => false
        | _ => true
      match ← next? with
      | none => fail "missing command"
      | some letter =>
        if letter = '#' ∧ addressed then fail "comments don't accept any addresses"
        else if letter = ':' ∧ addressed then fail ": doesn't want any addresses"
        else if letter = '\x7d' ∧ addressed then fail "\x7d doesn't want any addresses"
        else if letter = '\x7d' ∧ depth = 0 then fail "unexpected `\x7d'"
        else if letter = '\n' ∨ letter = ';' then fail "missing command"
        else
          let edit ← scanEdit extended letter
          let depth := if letter = '\x7b' then depth + 1
            else if letter = '\x7d' then depth - 1 else depth
          return ⟨lines, inverted, edit⟩ :: (← scanSteps extended fuel depth)

/-- The label that a step goes to. -/
def target? : Edit → Option Octets
  | .branch name => if name.isEmpty then none else some name
  | .branchIf _ name => if name.isEmpty then none else some name
  | _ => none

/-- Whether a step is the label of a name. -/
def isLabel (name : Octets) (s : EditStep) : Bool :=
  match s.edit with
  | .label n => n = name
  | _ => false

/-- The steps of a script, or what is wrong with it, and at which character. -/
def read (extended : Bool) (o : Octets) : Except Octets (List EditStep) :=
  match (scanSteps extended (o.length + 1) 0).run o with
  | .error (message, rest) =>
    let place := if message = "unmatched `\x7b'" then 0 else o.length - rest.length
    .error ("-e expression #1, char ".toList ++ Octets.ofNat place ++ ": ".toList ++ message.toList)
  | .ok (steps, _) =>
    match (steps.filterMap fun s => target? s.edit).find? fun n => !steps.any (isLabel n) with
    | some name => .error ("can't find label for jump to `".toList ++ name ++ ['\''])
    | none => .ok steps

end Edit
end Shell
end ImagePolicy
