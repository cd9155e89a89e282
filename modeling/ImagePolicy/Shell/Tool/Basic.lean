/-
# Tools of scripts

The programs that scripts are built from. A tool gets its arguments, what it may read, and the
files, and comes to a status, what it writes to its two streams, and the files after it. A tool that
waits says for how long, and one that reads its input says how much of it.

Options are letters after a hyphen, or words after two; they may stand among the operands, and two
hyphens end them.

Like the shell itself the tools are outside of what is verified. They do what scripts mostly ask of
the programs of these names, which is less than the programs can do.

Key definitions: `Shell.Tool`, `Shell.Given`, `Shell.Result`, `Shell.Given.read`,
`Shell.withOptions`.
-/
import ImagePolicy.Shell.Octets
import ImagePolicy.Scratch.Disk

namespace ImagePolicy
namespace Shell

/-- What a tool is given. Its input may be a file, in which it can go back. -/
structure Given where
  arguments : List Octets
  input : Octets
  fromFile : Bool
  disk : Disk
  directory : Path
  bindings : List (Octets × Octets)

/-- What a tool comes to. -/
structure Result where
  status : Nat
  written : List (Nat × Octets) := []
  duration : Nat := 0
  taken : Nat := 0
  disk : Disk

/-- A program. -/
abbrev Tool := Given → Result

/-- Why a file cannot be used. -/
inductive FileFault where
  | missing
  | isDirectory
  | isNoDirectory
  | present
  | notEmpty
  deriving DecidableEq, Repr

/-- The wording of a fault. -/
def FileFault.message : FileFault → Octets
  | .missing => "No such file or directory".toList
  | .isDirectory => "Is a directory".toList
  | .isNoDirectory => "Not a directory".toList
  | .present => "File exists".toList
  | .notEmpty => "Directory not empty".toList

/-! ### Messages -/

/-- A message of a tool about an operand. -/
def about (tool : String) (name what : Octets) : Octets :=
  tool.toList ++ ':' :: ' ' :: name ++ ':' :: ' ' :: what

/-- A name in quotes. -/
def quotedName (name : Octets) : Octets := '\'' :: name ++ ['\'']

/-- A message of a tool about what it cannot do with an operand. -/
def cannot (tool act : String) (name what : Octets) : Octets :=
  tool.toList ++ ": cannot ".toList ++ act.toList ++ ' ' :: quotedName name ++ ':' :: ' ' :: what

/-- A message of a tool about an operand that it cannot open, or cannot read once it is open. -/
def cannotRead (tool : String) (name : Octets) (fault : FileFault) : Octets :=
  match fault with
  | .isDirectory =>
    tool.toList ++ ": error reading ".toList ++ quotedName name ++ ':' :: ' ' :: fault.message
  | fault =>
    tool.toList ++ ": cannot open ".toList ++ quotedName name ++ " for reading: ".toList ++
      fault.message

/-- A message with the hint that a tool gives at a wrong use. -/
def withHint (tool : String) (message : Octets) : Octets :=
  tool.toList ++ ": ".toList ++ message ++ "\nTry '".toList ++ tool.toList ++
    " --help' for more information.".toList

namespace Result

/-- Writes to the output. -/
def say (r : Result) (o : Octets) : Result :=
  if o.isEmpty then r else { r with written := r.written ++ [(1, o)] }

/-- Writes a message. -/
def note (r : Result) (o : Octets) : Result :=
  { r with written := r.written ++ [(2, o ++ ['\n'])] }

/-- Writes a message, with a status. -/
def fail (r : Result) (status : Nat) (o : Octets) : Result :=
  { r.note o with status }

/-- Has taken all of the input. -/
def takeAll (r : Result) (g : Given) : Result :=
  { r with taken := g.input.length }

end Result

namespace Given

/-- Ends with a status and nothing written. -/
def finish (g : Given) (status : Nat) : Result :=
  { status, disk := g.disk }

/-- Ends well after writing a text. -/
def say (g : Given) (output : Octets) : Result :=
  (g.finish 0).say output

/-- Ends with a status and a message. -/
def complain (g : Given) (status : Nat) (message : Octets) : Result :=
  (g.finish status).note message

/-- Where a written path leads. -/
def resolve? (g : Given) (name : Octets) : Option Path :=
  g.disk.resolveFrom? g.directory (Octets.toString name)

/-- What a written path leads to. -/
def node? (g : Given) (name : Octets) : Option Node :=
  (g.resolve? name).bind g.disk.node?

/-- Whether an operand stands for what the tool reads. -/
def isInput (name : Octets) : Bool :=
  name = ['-'] || ["/dev/stdin", "/dev/fd/0", "/proc/self/fd/0"].contains (String.ofList name)

/-- How much of the endless zero device is read. -/
def zeroBytes : Nat := 262144

/-- Why nothing is at a written path: something before a slash is a file, or it is missing. -/
def absence (g : Given) (name : Octets) : FileFault :=
  let start := if name.head? = some '/' then [] else g.directory
  let steps := (pathComponents (Octets.toString name)).dropLast
  let paths := steps.foldl (fun (ps : List Path) c => Disk.enter (ps.headD start) c :: ps) [start]
  if paths.any fun p => (g.disk.content? p).isSome then .isNoDirectory else .missing

/-- The content that an operand names; a hyphen is what the tool reads. -/
def read (g : Given) (name : Octets) : Except FileFault Octets :=
  if isInput name then .ok g.input
  else if name = "/dev/zero".toList then .ok (List.replicate zeroBytes '\x00')
  else match g.node? name with
    | some (.file content) => .ok (.ofBytes content)
    | some .null => .ok []
    | some .directory => .error .isDirectory
    | none => .error (g.absence name)

end Given

/-! ### Options -/

/-- The options among the arguments, in order, each with its value if it has one. -/
abbrev Options := List (Char × Octets)

namespace Options

/-- Whether an option is given. -/
def has (o : Options) (letter : Char) : Bool :=
  o.any fun p => p.1 = letter

/-- Whether one of some options is given. -/
def hasAny (o : Options) (letters : String) : Bool :=
  o.any fun p => letters.toList.contains p.1

/-- The value of an option that is given last. -/
def value? (o : Options) (letter : Char) : Option Octets :=
  (o.reverse.lookup letter)

/-- The values of an option, in order. -/
def values (o : Options) (letter : Char) : List Octets :=
  o.filterMap fun p => if p.1 = letter then some p.2 else none

end Options

/-- The options that a tool knows: letters, each followed by a colon if it has a value, and words
for letters. -/
structure OptionNames where
  letters : String
  words : List (String × Char) := []

/-- Whether a letter is an option, and whether it has a value. -/
def OptionNames.takesValue? (names : OptionNames) (letter : Char) : Option Bool :=
  let rec find : List Char → Option Bool
    | [] => none
    | c :: ':' :: cs => if c = letter then some true else find cs
    | c :: cs => if c = letter then some false else find cs
  if letter = ':' then none else find names.letters.toList

/-- Reads letters of one argument; the next argument may be the value of the last one. Gives the
options and whether that argument is taken. -/
def readLetters (names : OptionNames) (next : Option Octets) :
    Octets → Except Octets (Options × Bool)
  | [] => .ok ([], false)
  | c :: cs =>
    match names.takesValue? c with
    | none => .error ("invalid option -- ".toList ++ quotedName [c])
    | some false => (readLetters names next cs).map fun (o, taken) => ((c, []) :: o, taken)
    | some true =>
      match cs, next with
      | _ :: _, _ => .ok ([(c, cs)], false)
      | [], some v => .ok ([(c, v)], true)
      | [], none => .error ("option requires an argument -- ".toList ++ quotedName [c])

/-- Reads a word of an option. -/
def readWordOption (names : OptionNames) (next : Option Octets) (argument : Octets) :
    Except Octets (Options × Bool) :=
  let (word, value) := match Text.splitFirst '=' argument with
    | some (w, v) => (w, some v)
    | none => (argument, none)
  match names.words.lookup (String.ofList word) with
  | none => .error ("unrecognized option '--".toList ++ argument ++ ['\''])
  | some letter =>
    match names.takesValue? letter, value, next with
    | some true, some v, _ => .ok ([(letter, v)], false)
    | some true, none, some v => .ok ([(letter, v)], true)
    | some true, none, none =>
      .error ("option '--".toList ++ word ++ "' requires an argument".toList)
    | _, some _, _ => .error ("option '--".toList ++ word ++ "' doesn't allow an argument".toList)
    | _, none, _ => .ok ([(letter, [])], false)

/-- Reads options and operands. -/
def readOptions (names : OptionNames) : Nat → List Octets → Except Octets (Options × List Octets)
  | 0, as => .ok ([], as)
  | _, [] => .ok ([], [])
  | fuel + 1, a :: as =>
    let go : Except Octets (Options × Bool) → Except Octets (Options × List Octets) :=
      fun read => do
      let (o, taken) ← read
      let (more, operands) ← readOptions names fuel (if taken then as.tail else as)
      .ok (o ++ more, operands)
    match a with
    | ['-', '-'] => .ok ([], as)
    | '-' :: '-' :: word => go (readWordOption names as.head? word)
    | '-' :: c :: cs => go (readLetters names as.head? (c :: cs))
    | a => (readOptions names fuel as).map fun (o, operands) => (o, a :: operands)

/-- Goes on with the options and operands, or ends with a status at an argument that is wrong. -/
def withOptions (tool : String) (failure : Nat) (names : OptionNames) (g : Given)
    (body : Options → List Octets → Result) : Result :=
  match readOptions names g.arguments.length g.arguments with
  | .ok (o, operands) => body o operands
  | .error e => g.complain failure (withHint tool e)

/-! ### Contents -/

/-- Runs a filter over the operands' contents one after the other, or over what the tool reads if
there are none. An operand that cannot be read is complained of, and the status tells so in the
end. -/
def eachOperand (wording : Octets → FileFault → Octets) (failure : Nat) (g : Given)
    (operands : List Octets) (filter : Octets → Octets → Octets) : Result :=
  if operands.isEmpty then (g.say (filter [] g.input)).takeAll g
  else
    let r := operands.foldl (fun (r : Result) name =>
      match g.read name with
      | .ok o => r.say (filter name o)
      | .error e => r.fail failure (wording name e)) (g.finish 0)
    if operands.any Given.isInput then r.takeAll g else r

/-- The output of a result. -/
def Result.output (r : Result) : Octets :=
  r.written.flatMap fun (d, o) => if d = 1 then o else []

/-- A result with another output after its messages. -/
def Result.withOutput (r : Result) (o : Octets) : Result :=
  { r with written := r.written.filter (·.1 = 2) ++ (if o.isEmpty then [] else [(1, o)]) }

/-- The contents of the operands, one after the other, or what the tool reads if there are none. -/
def contents (wording : Octets → FileFault → Octets) (failure : Nat) (g : Given)
    (operands : List Octets) : Result :=
  eachOperand wording failure g operands fun _ o => o

/-- The wording of most tools for an operand that cannot be read. -/
def plainWording (tool : String) (name : Octets) (fault : FileFault) : Octets :=
  about tool name fault.message

end Shell
end ImagePolicy
