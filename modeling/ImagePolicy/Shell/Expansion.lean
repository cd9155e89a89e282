/-
# Expansion of words

What the words of a command stand for. Parameters, command substitutions and arithmetic are put in;
what comes of them outside of quotes is split into fields at the separators that `IFS` names; a
field with an unquoted pattern becomes the paths it matches, if there are any. White space among the
separators does not count at the ends, and much of it counts once; any other separator ends a field.

Key definitions: `Shell.expandText`, `Shell.expandFields`, `Shell.expandPattern`,
`Shell.fieldsOf`, `Shell.matchingPaths`.
-/
import ImagePolicy.Shell.Trap
import ImagePolicy.Shell.Arithmetic
import ImagePolicy.Shell.Pattern

namespace ImagePolicy
namespace Shell

/-- A part of an expanded word: a character, which may be quoted and may come from an expansion, a
mark that there were quotes, or the end of an operand. -/
inductive Item where
  | char (c : Char) (quoted expanded : Bool)
  | mark
  | gap (hard : Bool)
  deriving DecidableEq, Repr

/-- A text as items. -/
def itemsOf (quoted expanded : Bool) (text : Octets) : List Item :=
  text.map fun c => .char c quoted (expanded && !quoted)

/-- The text of items. -/
def itemsText (items : List Item) : Octets :=
  items.filterMap fun
    | .char c _ _ => some c
    | .gap _ => some ' '
    | .mark => none

/-- The quoted text of items. -/
def itemsPattern (items : List Item) : QuotedText :=
  items.filterMap fun
    | .char c quoted _ => some (c, quoted)
    | .gap _ => some (' ', false)
    | .mark => none

/-! ### Parameters -/

/-- The separators of fields. -/
def separators : Act Octets := return ((← value? "IFS").getD [' ', '\t', '\n'])

/-- The value of a parameter other than all operands. -/
def parameter? (name : Octets) : Act (Option Octets) := do
  let s ← get
  match name with
  | ['?'] => return some (Octets.ofNat s.status)
  | ['#'] => return some (Octets.ofNat s.operands.length)
  | ['$'] => return some (Octets.ofNat s.main)
  | ['!'] => return s.lastJob.map Octets.ofNat
  | ['-'] => return some (optionLetters.filter s.options.contains)
  | _ =>
    match Octets.toNat? name with
    | some 0 => return some s.name
    | some (n + 1) => return s.operands[n]?
    | none => return s.value? name

/-- Whether a parameter stands for all operands. -/
def isAllOperands (name : Octets) : Bool := name = ['@'] || name = ['*']

/-- All operands as one text. -/
def joinedOperands : Act (Option Octets) := do
  let s ← get
  let separator := match s.value? "IFS".toList with
    | none => [' ']
    | some ifs => ifs.take 1
  return if s.operands.isEmpty then none else some (Octets.join separator s.operands)

/-- The value of a parameter, all operands as one text. -/
def wholeValue? (name : Octets) : Act (Option Octets) :=
  if isAllOperands name then joinedOperands else parameter? name

/-- Gives up because a parameter is not set. -/
def notSet {α : Type} (name : Octets) (ending : String) : Act α :=
  abort (name ++ ": parameter not set".toList ++ ending.toList)

/-- Gives up if a parameter that has to be set is not. -/
def requireSet (name : Octets) (value : Option Octets) : Act Unit := do
  if value.isNone && !isAllOperands name && (← hasOption 'u') then notSet name ""

/-- The items of a parameter's value. All operands stay apart where fields are made of them. -/
def valueItems (split expanded quoted : Bool) (name value : Octets) : Act (List Item) := do
  let s ← get
  if !isAllOperands name || !split then return itemsOf quoted expanded value
  else if name = ['@'] && quoted then
    return List.intercalate [.gap true] (s.operands.map fun o => .mark :: itemsOf true expanded o)
  else if quoted then return itemsOf true expanded value
  else return List.intercalate [.gap false] (s.operands.map (itemsOf false expanded))

/-- A text without the shortest or longest beginning that a pattern matches. -/
def dropMatching (longest : Bool) (pattern : List GlobPart) (text : Octets) : Octets :=
  let lengths := List.range (text.length + 1)
  let lengths := if longest then lengths.reverse else lengths
  match lengths.find? fun n => globMatches pattern (text.take n) with
  | some n => text.drop n
  | none => text

/-- A text without the shortest or longest end that a pattern matches. -/
def dropMatchingEnd (longest : Bool) (pattern : List GlobPart) (text : Octets) : Octets :=
  let lengths := List.range (text.length + 1)
  let lengths := if longest then lengths else lengths.reverse
  match lengths.find? fun n => globMatches pattern (text.drop n) with
  | some n => text.take n
  | none => text

/-! ### Words -/

/-- What a script writes, as a value: without zero bytes and without the line breaks at its end. -/
def substituted (output : Octets) : Octets :=
  ((output.filter (· ≠ '\x00')).reverse.dropWhile (· = '\n')).reverse

/-- Runs a command and takes what it writes. -/
def captureOutput (inner : Interpreter) (body : Command) : Act Octets := do
  let n ← openStream (.sink [])
  let status ← runChild inner
    (fun s => { s with descriptors := (1, n) :: s.descriptors.filter fun d => d.1 ≠ 1 })
    (inner.command false body)
  let code ← tellEnd status
  modify fun s => { s with substituted := code }
  let s ← get
  onMachine fun m => m.setStream n .null
  return s.machine.collect n

/-- The home directory after a tilde, if there is one. -/
def homeOf (user : Octets) : Act (Option Octets) := do
  if user.isEmpty then value? "HOME"
  else if user = "root".toList then return some "/root".toList
  else return none

/-- A text with the home directory for a tilde in front of it. -/
def tildeText (text : Octets) : Act (List Item) := do
  let unquoted := itemsOf false false text
  match text with
  | '~' :: o =>
    let user := o.takeWhile fun c => c ≠ '/' && c ≠ ':'
    match ← homeOf user with
    | some home => return itemsOf true false home ++ itemsOf false false (o.drop user.length)
    | none => return unquoted
  | _ => return unquoted

/-- Whether an unquoted text is followed by the end of the word or goes on with a slash, so that a
tilde in it may stand for a home directory. -/
def tildeMayStand (text : Octets) (rest : Word) : Bool :=
  text.head? = some '~' && (rest.isEmpty || text.contains '/')

/-- How a word is expanded: whether fields are made of it, and whether it comes from an expansion
itself. -/
structure Expanding where
  split : Bool
  expanded : Bool := false

/-- The expansion one level down. -/
abbrev ExpandDeeper := Expanding → Word → Act (List Item)

/-- The value that is put in the place of a parameter's. -/
def substituteValue (down : ExpandDeeper) (e : Expanding) (w : Word) : Act (List Item) :=
  down { e with expanded := true } w

/-- The text of a word. -/
def wordText (down : ExpandDeeper) (w : Word) : Act Octets :=
  return itemsText (← down ⟨false, false⟩ w)

/-- The pattern of a word. -/
def wordPattern (down : ExpandDeeper) (w : Word) : Act (List GlobPart) :=
  return globOf (itemsPattern (← down ⟨false, false⟩ w))

/-- Sets a parameter to the text of a word. -/
def assignParameter (down : ExpandDeeper) (name : Octets) (w : Word) : Act Octets := do
  let text ← wordText down w
  if isName name then
    setVariable name text
    return text
  else abort (name ++ ": bad variable name".toList)

/-- The items of a parameter with its modifier. -/
def expandParameter (down : ExpandDeeper) (e : Expanding) (name : Octets) (m : Modifier)
    (quoted : Bool) : Act (List Item) := do
  let value ← wholeValue? name
  let items : Octets → Act (List Item) := valueItems e.split true quoted name
  let present : Bool → Bool := fun evenIfEmpty =>
    match value with
    | some v => !(evenIfEmpty && v.isEmpty)
    | none => false
  match m with
  | .value =>
    requireSet name value
    items (value.getD [])
  | .length =>
    requireSet name value
    return itemsOf quoted true (Octets.ofNat (value.getD []).length)
  | .orElse evenIfEmpty w =>
    if present evenIfEmpty then items (value.getD []) else substituteValue down e w
  | .ifPresent evenIfEmpty w =>
    if present evenIfEmpty then substituteValue down e w else return []
  | .orAssign evenIfEmpty w =>
    if present evenIfEmpty then items (value.getD [])
    else
      let text ← assignParameter down name w
      return itemsOf quoted true text
  | .orFail evenIfEmpty w =>
    if present evenIfEmpty then items (value.getD [])
    else if w.isEmpty then notSet name (if evenIfEmpty then " or null" else "")
    else abort (name ++ ": ".toList ++ (← wordText down w))
  | .dropFront longest w =>
    requireSet name value
    let pattern ← wordPattern down w
    return itemsOf quoted true (dropMatching longest pattern (value.getD []))
  | .dropEnd longest w =>
    requireSet name value
    let pattern ← wordPattern down w
    return itemsOf quoted true (dropMatchingEnd longest pattern (value.getD []))
  | .wrong => abort "Bad substitution".toList

/-- The items of a piece. -/
def expandPiece (inner : Interpreter) (down : ExpandDeeper) (e : Expanding) :
    WordPiece → Act (List Item)
  | .mark => return [.mark]
  | .plain text quoted => return itemsOf quoted e.expanded text
  | .parameter name m quoted => expandParameter down e name m quoted
  | .substitution body quoted => do
    match body with
    | none => return []
    | some c => return itemsOf quoted true (substituted (← captureOutput inner c))
  | .arithmetic expression quoted => do
    let n ← arithmetic (← wordText down expression)
    return itemsOf quoted true (Text.integer n)

/-- The items of pieces in order. -/
def expandPieces (inner : Interpreter) (down : ExpandDeeper) (e : Expanding) (w : Word) :
    Act (List Item) :=
  w.foldlM (fun items p => return items ++ (← expandPiece inner down e p)) []

/-- The items of a word, so many levels deep at most. A tilde in front may stand for a home
directory. -/
def itemsAt (inner : Interpreter) : Nat → ExpandDeeper
  | 0, _, _ => abort "Bad substitution".toList
  | n + 1, e, .plain text false :: rest => do
    let first ←
      if !e.expanded && tildeMayStand text rest then tildeText text
      else pure (itemsOf false e.expanded text)
    return first ++ (← expandPieces inner (itemsAt inner n) e rest)
  | n + 1, e, w => expandPieces inner (itemsAt inner n) e w

/-- How deep words may nest in words. -/
def wordDepth : Nat := 200

/-- The items of a word. -/
def expandItems (inner : Interpreter) (e : Expanding) (w : Word) : Act (List Item) :=
  itemsAt inner wordDepth e w

/-- A word as one text. -/
def expandText (inner : Interpreter) (w : Word) : Act Octets :=
  return itemsText (← expandItems inner ⟨false, false⟩ w)

/-- A word in parts between unquoted colons. -/
def colonParts : Word → List Word
  | [] => [[]]
  | .plain text false :: rest =>
    let parts := (Text.split ':' text).map fun o =>
      if o.isEmpty then ([] : Word) else [.plain o false]
    match colonParts rest with
    | next :: more => parts.dropLast ++ (parts.getLastD [] ++ next) :: more
    | [] => parts
  | p :: rest =>
    match colonParts rest with
    | next :: more => (p :: next) :: more
    | [] => [[p]]

/-- The value of a word that is assigned to a variable: a tilde may also follow a colon. -/
def expandValue (inner : Interpreter) (w : Word) : Act Octets :=
  return Octets.join [':'] (← (colonParts w).mapM (expandText inner))

/-- A word as a pattern. -/
def expandPattern (inner : Interpreter) (w : Word) : Act (List GlobPart) :=
  return globOf (itemsPattern (← expandItems inner ⟨false, false⟩ w))

/-! ### Fields -/

/-- Fields under way: the field that is being made, whether it exists though it may be empty,
whether white space has just ended a field, and the fields made, newest first. -/
structure FieldProgress where
  current : QuotedText := []
  begun : Bool := false
  afterSpace : Bool := false
  made : List QuotedText := []

/-- Ends the field. -/
def FieldProgress.finish (p : FieldProgress) (afterSpace : Bool) : FieldProgress :=
  { made := p.current.reverse :: p.made, afterSpace }

/-- Adds a character to the field. -/
def FieldProgress.add (p : FieldProgress) (c : Char) (quoted : Bool) : FieldProgress :=
  { p with current := (c, quoted) :: p.current, begun := true, afterSpace := false }

/-- Meets white space that separates. -/
def FieldProgress.space (p : FieldProgress) : FieldProgress :=
  if p.afterSpace || !p.begun then p else p.finish true

/-- Goes on by an item. -/
def FieldProgress.next (ifs : Octets) (p : FieldProgress) : Item → FieldProgress
  | .mark => { p with begun := true, afterSpace := false }
  | .gap true => p.finish false
  | .gap false => p.space
  | .char c quoted expanded =>
    if !expanded || !ifs.contains c then p.add c quoted
    else if c = ' ' || c = '\t' || c = '\n' then p.space
    else if p.afterSpace then { p with afterSpace := false }
    else p.finish false

/-- The fields of items. -/
def fieldsOf (ifs : Octets) (items : List Item) : List QuotedText :=
  let p := items.foldl (FieldProgress.next ifs) {}
  (if p.begun then p.finish false else p).made.reverse

/-! ### Paths -/

/-- The components of a pattern between slashes. -/
def patternComponents : QuotedText → List QuotedText
  | [] => [[]]
  | (c, quoted) :: o =>
    match patternComponents o with
    | [] => [[(c, quoted)]]
    | part :: parts => if c = '/' then [] :: part :: parts else ((c, quoted) :: part) :: parts

/-- Names in ascending order of their bytes. -/
def inByteOrder (os : List Octets) : List Octets :=
  os.mergeSort fun a b => !decide (b < a)

/-- The paths that components of patterns match, from a directory on, each as it is written. -/
def matchingFrom (d : Disk) (directory : Path) (written : Octets) : List QuotedText → List Octets
  | [] => []
  | p :: ps =>
    let text := p.map Prod.fst
    let step : Octets → Path → List Octets := fun text path =>
      if ps.isEmpty then (if (d.node? path).isSome then [written ++ text] else [])
      else if d.isDirectory path then matchingFrom d path (written ++ text ++ ['/']) ps
      else []
    if !isPattern p then
      if text.isEmpty then
        (if ps.isEmpty then [written] else matchingFrom d directory (written ++ ['/']) ps)
      else step text (Disk.enter directory (Octets.toString text))
    else
      let pattern := globOf p
      let hidden : Bool := text.head? = some '.'
      let names := (inByteOrder ((d.names directory).map Octets.ofString)).filter fun name =>
        globMatches pattern name && (name.head? != some '.' || hidden)
      names.flatMap fun name => step name (directory ++ [Octets.toString name])

/-- The paths that a pattern matches, in ascending order. -/
def matchingPaths (d : Disk) (directory : Path) (pattern : QuotedText) : List Octets :=
  match patternComponents pattern with
  | [] :: p :: ps => matchingFrom d [] ['/'] (p :: ps)
  | ps => matchingFrom d directory [] ps

/-- The text of a field, or the paths that it matches. -/
def fieldTexts (f : QuotedText) : Act (List Octets) := do
  let s ← get
  let paths :=
    if isPattern f && !s.options.contains 'f' then
      matchingPaths s.machine.disk s.directory f
    else []
  return if paths.isEmpty then [f.map Prod.fst] else paths

/-- The fields of a word. -/
def expandFields (inner : Interpreter) (w : Word) : Act (List Octets) := do
  let items ← expandItems inner ⟨true, false⟩ w
  let fields := fieldsOf (← separators) items
  fields.foldlM (fun texts f => return texts ++ (← fieldTexts f)) []

/-- The fields of words. -/
def expandAll (inner : Interpreter) (ws : List Word) : Act (List Octets) :=
  ws.foldlM (fun fields w => return fields ++ (← expandFields inner w)) []

end Shell
end ImagePolicy
