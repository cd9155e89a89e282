/-
# Editing lines

How `sed` carries out its edits. Each line is taken in turn as the text at work, the edits go over
it, and it is written unless that is not wanted; another text is held beside it. A last line without
a line break is written without one.

Key definitions: `Shell.Editing`, `Shell.Editing.perform`, `Shell.Editing.cycles`,
`Shell.editLines`.
-/
import ImagePolicy.Shell.Tool.Edit
import ImagePolicy.Shell.Tool.Text

namespace ImagePolicy
namespace Shell

/-- What is known of a range: it has not begun, it goes on, up to a line if that is known, or it has
ended. -/
inductive RangeState where
  | waiting
  | open (last : Option Nat)
  | closed
  deriving DecidableEq, Repr

/-- An editor at work: the text at work and the one held, the lines to come and the number of those
taken, what is written after the line, the ranges, the expression used last, and what has been
written, newest first, each with whether a line break goes with it, and to which file. -/
structure Editing where
  silent : Bool
  unfinished : Bool
  work : Octets := []
  held : Octets := []
  lines : List Octets
  number : Nat := 0
  later : List (Octets × Bool) := []
  ranges : List (Nat × RangeState) := []
  lastRegex : Option (List Regex) := none
  substituted : Bool := false
  written : List (Octets × Bool) := []
  files : List (Octets × Octets) := []
  status : Nat := 0

/-- How the edits go on after one: with a step, with the next line, with the same text, or not at
all. -/
inductive EditTurn where
  | step (index : Nat)
  | lineDone
  | sameText
  | quit (silent : Bool)

namespace Editing

/-- Whether the line at work is the last. -/
def isLast (e : Editing) : Bool := e.lines.isEmpty

/-- Writes a text, whose line break is left out at the end of unfinished input. -/
def put (e : Editing) (o : Octets) : Editing :=
  { e with written := (o, !(e.unfinished && e.isLast)) :: e.written }

/-- Writes a text as it is. -/
def putPlain (e : Editing) (o : Octets) : Editing :=
  { e with written := (o.dropLast, true) :: e.written }

/-- Writes a line to a file. -/
def putTo (e : Editing) (name o : Octets) : Editing :=
  match String.ofList name with
  | "/dev/stdout" => e.put o
  | _ =>
    { e with
      files := e.files.map fun (n, text) => (n, if n = name then text ++ o ++ ['\n'] else text) }

/-- Everything written, with the line breaks that are due. -/
def output (e : Editing) : Octets :=
  let step : Octets × Bool → Octets × Bool → Octets × Bool := fun (o, whole) (text, breaks) =>
    (o ++ (if whole then [] else ['\n']) ++ text ++ (if breaks then ['\n'] else []), breaks)
  (e.written.reverse.foldl step ([], true)).1

/-- Writes what comes after the line. -/
def flush (e : Editing) : Editing :=
  let e := e.later.foldl (fun (e : Editing) (text, whole) =>
    if text.isEmpty then e
    else if whole ∧ text.getLast? = some '\n' then e.putPlain text
    else { e with written := (text, false) :: e.written }) e
  { e with later := [] }

/-- Takes the next line as the text at work. -/
def take? (e : Editing) : Option Editing :=
  match e.lines with
  | [] => none
  | l :: ls => some { e with work := l, lines := ls, number := e.number + 1 }

/-! ### Addresses -/

/-- Whether an expression matches the text at work; it becomes the one used last. -/
def matchRegex (e : Editing) (r : Option (List Regex)) : Option Regex.Found × Editing :=
  match r.or e.lastRegex with
  | some rs => (Regex.find? rs e.work, { e with lastRegex := some rs })
  | none => (none, e)

/-- Whether an address holds. -/
def holdsAt (e : Editing) : LineAddress → Bool × Editing
  | .number n => (n = e.number, e)
  | .everyNth first step =>
    (if step = 0 then e.number = first else first ≤ e.number && (e.number - first) % step = 0, e)
  | .final => (e.isLast, e)
  | .pattern r => let (found, e) := e.matchRegex r; (found.isSome, e)

/-- The editor with the state of a range. -/
def setRange (e : Editing) (index : Nat) (r : RangeState) : Editing :=
  { e with ranges := (index, r) :: e.ranges.filter fun x => x.1 ≠ index }

/-- Whether a range that may begin here does. -/
def beginRange (e : Editing) (index : Nat) (first : LineAddress) (last : RangeEnd) :
    Bool × Editing :=
  let (begins, e) := e.holdsAt first
  if !begins then (false, e)
  else
    let upTo : Nat → Bool × Editing := fun n =>
      (true, if n ≤ e.number then e.setRange index .waiting else e.setRange index (.open (some n)))
    match last with
    | .after n => upTo (e.number + n)
    | .multiple n => upTo (if n = 0 then e.number else (e.number + n - 1) / n * n)
    | .address (.number n) => upTo n
    | .address _ => (true, e.setRange index (.open none))

/-- Whether a step is for the line at work. -/
def applies (e : Editing) (index : Nat) (s : EditStep) : Bool × Editing :=
  let (holds, e) := match s.lines with
    | .every => (true, e)
    | .at a => e.holdsAt a
    | .range first last =>
      let fresh : RangeState := match first with
        | .number 0 => .open none
        | _ => .waiting
      match (e.ranges.lookup index).getD fresh with
      | .waiting => e.beginRange index first last
      | .closed => (false, e)
      | .open (some n) =>
        if n < e.number then e.beginRange index first last
        else (true, if e.number = n then e.setRange index .waiting else e)
      | .open none =>
        match last with
        | .address a =>
          let (ends, e) := e.holdsAt a
          let after : RangeState := match first with
            | .number 0 => .closed
            | _ => .waiting
          (true, if ends then e.setRange index after else e)
        | _ => (true, e)
  (holds != s.inverted, e)

/-! ### Substitution -/

/-- A text with a change of case. -/
def changed (change : CaseChange) (once : Option CaseChange) (o : Octets) : Octets :=
  let base := match change with
    | .upper => o.map Char.toUpper
    | .lower => o.map Char.toLower
    | _ => o
  match once, base with
  | some .upperOnce, c :: cs => c.toUpper :: cs
  | some .lowerOnce, c :: cs => c.toLower :: cs
  | _, base => base

/-- The text that a match is replaced by. -/
def replaced (f : Regex.Found) (ps : List ReplacementPart) : Octets :=
  let step : Octets × CaseChange × Option CaseChange → ReplacementPart →
      Octets × CaseChange × Option CaseChange := fun (done, change, once) p =>
    let add : Octets → Octets × CaseChange × Option CaseChange := fun o =>
      (done ++ changed change once o, change, if o.isEmpty then once else none)
    match p with
    | .text o => add o
    | .group 0 => add f.text
    | .group n => add ((f.captures.lookup n).getD [])
    | .change .upperOnce => (done, change, some .upperOnce)
    | .change .lowerOnce => (done, change, some .lowerOnce)
    | .change c => (done, c, none)
  (ps.foldl step ([], .same, none)).1

/-- A text with matches replaced, from the one of a number on, and whether any was. -/
def substitute (rs : List Regex) (s : Substitution) :
    Nat → (count : Nat) → (passed rest : Octets) → Octets × Bool
  | 0, _, _, rest => (rest, false)
  | fuel + 1, count, passed, rest =>
    match Regex.findFrom rs passed rest with
    | none => (rest, false)
    | some f =>
      let gap := f.before.drop passed.length
      let chosen : Bool := count = s.first || (s.all && s.first < count)
      let text := if chosen then replaced f s.replacement else f.text
      let before := f.text.reverse ++ f.before.reverse
      let goesOn := s.all || count < s.first
      if !goesOn then (gap ++ text ++ f.after, chosen)
      else match f.text, f.after with
        | [], [] => (gap ++ text, chosen)
        | [], c :: o =>
          let (more, any) := substitute rs s fuel (count + 1) (c :: before) o
          (gap ++ text ++ c :: more, chosen || any)
        | _, o =>
          let (more, any) := substituteAfter fuel (count + 1) before o
          (gap ++ text ++ more, chosen || any)
where
  /-- Goes on after a match; an empty one right there does not count. -/
  substituteAfter (fuel count : Nat) (passed rest : Octets) : Octets × Bool :=
    match fuel with
    | 0 => (rest, false)
    | fuel + 1 =>
      match Regex.findFrom rs passed rest with
      | none => (rest, false)
      | some f =>
        if f.text.isEmpty ∧ f.before.length = passed.length then
          match rest with
          | [] => ([], false)
          | c :: o =>
            let (more, any) := substitute rs s fuel count (c :: passed) o
            (c :: more, any)
        else substitute rs s fuel count passed rest

/-! ### Steps -/

/-- A text in a form without doubt, with lines of at most 69 characters. -/
def unambiguous (o : Octets) : Octets :=
  let shown : Char → Octets := fun c =>
    match c with
    | '\\' => ['\\', '\\']
    | '\x07' => ['\\', 'a']
    | '\x08' => ['\\', 'b']
    | '\x0c' => ['\\', 'f']
    | '\n' => ['\\', 'n']
    | '\r' => ['\\', 'r']
    | '\t' => ['\\', 't']
    | '\x0b' => ['\\', 'v']
    | c =>
      if ' ' ≤ c ∧ c ≤ '~' then [c]
      else
        let digit : Nat → Char := fun d => Char.ofNat (48 + d)
        ['\\', digit (c.toNat / 64), digit (c.toNat / 8 % 8), digit (c.toNat % 8)]
  let step : Nat × Octets → Char → Nat × Octets := fun (width, done) c =>
    let text := shown c
    if 69 < width + text.length then (text.length, done ++ ['\\', '\n'] ++ text)
    else (width + text.length, done ++ text)
  (o.foldl step (0, [])).2 ++ ['$']

/-- The first line of the text at work. -/
def firstLine (e : Editing) : Octets := e.work.takeWhile (· ≠ '\n')

/-- The index after the block that a step opens. -/
def afterBlock (steps : List EditStep) (index : Nat) : Nat :=
  let step : Nat × Option Nat → Nat × EditStep → Nat × Option Nat := fun (depth, found) (i, s) =>
    match found, s.edit with
    | some n, _ => (depth, some n)
    | none, .open => (depth + 1, none)
    | none, .close => if depth = 1 then (0, some (i + 1)) else (depth - 1, none)
    | none, _ => (depth, none)
  let rest := (steps.zipIdx.map fun (s, i) => (i, s)).drop index
  (rest.foldl step (0, none)).2.getD steps.length

/-- The index of the step that a label names; the empty label is the end. -/
def target (steps : List EditStep) (label : Octets) : Nat :=
  if label.isEmpty then steps.length
  else (steps.findIdx? (Edit.isLabel label)).getD steps.length

/-- Whether a step ends a range or is for no range. -/
def endsRange (e : Editing) (index : Nat) (s : EditStep) : Bool :=
  match s.lines with
  | .range _ _ =>
    s.inverted || (match e.ranges.lookup index with
      | some (.open _) => e.isLast
      | _ => true)
  | _ => true

/-- Carries out the edit of a step. -/
def perform (read : Octets → Option Octets) (steps : List EditStep) (index : Nat) (s : EditStep)
    (e : Editing) : EditTurn × Editing :=
  let goOn : Editing → EditTurn × Editing := fun e => (.step (index + 1), e)
  match s.edit with
  | .open => goOn e
  | .close => goOn e
  | .label _ => goOn e
  | .print => goOn (e.put e.work)
  | .printFirst => goOn { e with written := (e.firstLine, true) :: e.written }
  | .number => goOn { e with written := (Octets.ofNat e.number, true) :: e.written }
  | .unambiguous => goOn { e with written := (unambiguous e.work, true) :: e.written }
  | .delete => (.lineDone, { e with work := [] })
  | .deleteFirst =>
    if e.work.contains '\n' then
      (.sameText, { e with work := e.work.drop (e.firstLine.length + 1) })
    else (.lineDone, e)
  | .next =>
    if e.isLast then (.quit false, e)
    else
      let e := (if e.silent then e else e.put e.work).flush
      goOn ((e.take?).getD e)
  | .appendNext =>
    match e.lines with
    | [] => (.quit false, e)
    | l :: _ =>
      let work := e.work ++ '\n' :: l
      let e := e.flush
      goOn { (e.take?).getD e with work }
  | .quit status silent => (.quit silent, { e with status })
  | .append text => goOn { e with later := e.later ++ [(text, true)] }
  | .insert text => goOn (e.putPlain text)
  | .change text =>
    let e := if e.endsRange index s then e.putPlain text else e
    (.lineDone, { e with work := [] })
  | .readFile name => goOn { e with later := e.later ++ [((read name).getD [], true)] }
  | .writeFile name => goOn (e.putTo name e.work)
  | .writeFirst name => goOn (e.putTo name e.firstLine)
  | .branch label => (.step (target steps label), e)
  | .branchIf wanted label =>
    let e' := { e with substituted := false }
    if e.substituted = wanted then (.step (target steps label), e') else goOn e'
  | .hold => goOn { e with held := e.work }
  | .holdMore => goOn { e with held := e.held ++ '\n' :: e.work }
  | .fetch => goOn { e with work := e.held }
  | .fetchMore => goOn { e with work := e.work ++ '\n' :: e.held }
  | .swap => goOn { e with work := e.held, held := e.work }
  | .empty => goOn { e with work := [] }
  | .exchange pairs => goOn { e with work := e.work.map fun c => (pairs.lookup c).getD c }
  | .substitute s =>
    match s.pattern.or e.lastRegex with
    | none => goOn e
    | some rs =>
      let (work, any) := substitute rs s (2 * e.work.length + 4) 1 [] e.work
      let e := { e with lastRegex := some rs }
      if !any then goOn e
      else
        let e := { e with work, substituted := true }
        let e := if s.printed then e.put work else e
        goOn (match s.file with | some name => e.putTo name work | none => e)

/-- Carries out steps from one on, so many at most. -/
def steps (read : Octets → Option Octets) (all : List EditStep) :
    Nat → Nat → Editing → EditTurn × Editing
  | 0, _, e => (.quit true, e)
  | fuel + 1, index, e =>
    match all[index]? with
    | none => (.step index, e)
    | some s =>
      let (applies, e) := e.applies index s
      let (turn, e) :=
        if applies then perform read all index s e
        else match s.edit with
          | .open => (.step (afterBlock all index), e)
          | _ => (.step (index + 1), e)
      match turn with
      | .step next => steps read all fuel next e
      | turn => (turn, e)

/-- How many steps may be carried out for a line. -/
def stepLimit : Nat := 100000

/-- Carries out all edits for the text at work, and so on. -/
def cycles (read : Octets → Option Octets) (all : List EditStep) : Nat → Editing → Editing
  | 0, e => e
  | fuel + 1, e =>
    let finish : Editing → Editing := fun e => (if e.silent then e else e.put e.work).flush
    let goOn : Editing → Editing := fun e =>
      match e.take? with
      | some e => cycles read all fuel { e with substituted := false }
      | none => e
    match steps read all stepLimit 0 e with
    | (.step _, e) => goOn (finish e)
    | (.lineDone, e) => goOn e.flush
    | (.sameText, e) => cycles read all fuel e.flush
    | (.quit true, e) => e
    | (.quit false, e) => finish e

/-- Edits a content. -/
def edit (read : Octets → Option Octets) (silent : Bool) (all : List EditStep) (o : Octets)
    (files : List (Octets × Octets)) : Editing :=
  let lines := Octets.lines o
  let e : Editing :=
    { silent, unfinished := o.getLast? ≠ some '\n' && !o.isEmpty, lines, files }
  match e.take? with
  | some e => cycles read all (2 * lines.length + o.length + 2) e
  | none => e

end Editing

/-- The files that steps write to. -/
def writtenFiles (steps : List EditStep) : List Octets :=
  (steps.filterMap fun s =>
    match s.edit with
    | .writeFile name => some name
    | .writeFirst name => some name
    | .substitute s => s.file
    | _ => none).eraseDups.filter fun n => n ≠ "/dev/stdout".toList

/-- The options of `sed` that are known. -/
def editNames : OptionNames where
  letters := "nEre:f:i::szulI:"
  words :=
    [("quiet", 'n'), ("silent", 'n'), ("regexp-extended", 'E'), ("expression", 'e'), ("file", 'f'),
      ("in-place", 'I'), ("separate", 's'), ("null-data", 'z'), ("unbuffered", 'u')]

/-- The arguments with an ending for copies taken off the option to edit in place. -/
def withoutCopyEnding (as : List Octets) : List Octets :=
  as.map fun a =>
    match a with
    | '-' :: 'i' :: _ => ['-', 'i']
    | a => if "--in-place".toList.isPrefixOf a then ['-', 'i'] else a

/-- Writes its operands with edits, or edits them in place. -/
def editLines : Tool := fun g =>
  let names := { editNames with letters := "nEre:f:iszul" }
  let arguments := withoutCopyEnding g.arguments
  let g := { g with arguments }
  let usage : Octets → Result := fun what => g.complain 1 ("sed: ".toList ++ what ++
    "\nUsage: sed [OPTION]... \x7bscript-only-if-no-other-script\x7d [input-file]...".toList)
  match readOptions names arguments.length arguments with
  | .error e => usage e
  | .ok (o, operands) =>
    let given := o.filter fun (c, _) => c = 'e' ∨ c = 'f'
    let scripts := given.map fun (c, v) =>
      if c = 'e' then Except.ok v
      else match g.read v with
        | .ok text => .ok (if text.getLast? = some '\n' then text.dropLast else text)
        | .error e => .error ("couldn't open file ".toList ++ v ++ ": ".toList ++ e.message)
    let fault := scripts.findSome? fun r => match r with | .error e => some e | .ok _ => none
    match fault, given, operands with
    | some e, _, _ => g.complain 4 ("sed: ".toList ++ e)
    | none, [], [] =>
      g.complain 1 ("Usage: sed [OPTION]... \x7bscript-only-if-no-other-script\x7d " ++
        "[input-file]...").toList
    | none, _, _ =>
      let script :=
        if given.isEmpty then operands.headD []
        else
          Octets.join ['\n'] (scripts.filterMap fun r => match r with | .ok v => some v | _ => none)
      let operands := if given.isEmpty then operands.drop 1 else operands
      match Edit.read (o.hasAny "Er") script with
      | .error e =>
        g.complain (if "can't find".toList.isPrefixOf e then 4 else 1) ("sed: ".toList ++ e)
      | .ok steps =>
        let first := script.take 2
        let silent := o.has 'n' || (script.takeWhile (· ≠ '\n') = ['#', 'n'] && first = ['#', 'n'])
        let fileText : Octets → Option Octets := fun name =>
          match g.read name with
          | .ok text => some text
          | .error _ => none
        let files := (writtenFiles steps).map fun n => (n, ([] : Octets))
        let wording : Octets → FileFault → Octets := fun name e =>
          match e with
          | .isDirectory =>
            if o.has 'i' then "sed: couldn't edit ".toList ++ name ++ ": not a regular file".toList
            else "sed: read error on ".toList ++ name ++ ": Is a directory".toList
          | e => "sed: can't read ".toList ++ name ++ ": ".toList ++ e.message
        let store : Result → Octets → Octets → Result := fun r name text =>
          match (r.disk.resolveFrom? g.directory (Octets.toString name)).bind fun p =>
              r.disk.write? p (Octets.toBytes text) with
          | some disk => { r with disk }
          | none => r.fail 4 ("sed: couldn't open file ".toList ++ name ++ ": ".toList ++
              FileFault.missing.message)
        let saveFiles : Result → Editing → Result := fun r e =>
          e.files.foldl (fun r (name, text) => store r name text) r
        if o.hasAny "is" then
          let step : Result × List (Octets × Octets) → Octets → Result × List (Octets × Octets) :=
            fun (r, files) name =>
              match g.read name with
              | .error e => (r.fail (if e = .isDirectory then 4 else 2) (wording name e), files)
              | .ok text =>
                let e := Editing.edit fileText silent steps text files
                (if o.has 'i' then store r name e.output else r.say e.output, e.files)
          let (r, files) := operands.foldl step (g.finish 0, files)
          files.foldl (fun r (name, text) => store r name text) r
        else
          let r := contents wording 2 g operands
          let r := if operands.any fun n => g.node? n = some .directory then { r with status := 4 }
            else r
          let e := Editing.edit fileText silent steps r.output files
          let stops := e.status ≠ 0
          saveFiles { r.withOutput e.output with status := if stops then e.status else r.status } e

end Shell
end ImagePolicy
