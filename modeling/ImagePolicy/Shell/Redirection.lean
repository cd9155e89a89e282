/-
# Redirections

Where the streams of a command go instead. A file is opened from the directory the shell is in;
the devices of the shell's own streams are those streams. The words of all redirections are expanded
first; then they are carried out in order, and the first that fails ends them.

Key definitions: `Shell.opening`, `Shell.carryOut`, `Shell.redirects`, `Shell.always`.
-/
import ImagePolicy.Shell.Expansion

namespace ImagePolicy
namespace Shell

/-- Where a written path leads from the directory of the shell. -/
def State.resolve? (s : State) (name : Octets) : Option Path :=
  s.machine.disk.resolveFrom? s.directory (Octets.toString name)

/-- What a written path leads to from the directory of the shell. -/
def State.node? (s : State) (name : Octets) : Option Node :=
  (s.resolve? name).bind s.machine.disk.node?

/-- The descriptor that the path of a device stands for. -/
def deviceDescriptor? (name : Octets) : Option Nat :=
  match String.ofList name with
  | "/dev/stdin" => some 0
  | "/dev/stdout" => some 1
  | "/dev/stderr" => some 2
  | text =>
    if text.startsWith "/dev/fd/" then Octets.toNat? (name.drop 8)
    else if text.startsWith "/proc/self/fd/" then Octets.toNat? (name.drop 14)
    else none

/-- Gives up because a file cannot be opened. -/
def cannotOpenFile {α : Type} (act : String) (name : Octets) (why : String) : Act α :=
  abort ("cannot ".toList ++ act.toList ++ ' ' :: name ++ ": ".toList ++ why.toList)

/-- Opens a file to be read; gives the number of the stream. -/
def openToRead (name : Octets) : Act Nat := do
  let s ← get
  match s.resolve? name, s.node? name with
  | some p, some (.file _) => openStream (.file p 0 false)
  | some _, some _ => openStream .null
  | _, _ => cannotOpenFile "open" name "No such file"

/-- Opens a file to be written; gives the number of the stream. -/
def openToWrite (arrow : Arrow) (name : Octets) : Act Nat := do
  let s ← get
  let disk := s.machine.disk
  match s.resolve? name with
  | none => cannotOpenFile "create" name "Directory nonexistent"
  | some p =>
    match disk.node? p with
    | some .directory => cannotOpenFile "create" name "Is a directory"
    | some .null => openStream .null
    | some (.file content) =>
      if arrow = .write && s.options.contains 'C' then cannotOpenFile "create" name "File exists"
      else
        let kept := if arrow = .append ∨ arrow = .update then content else []
        onMachine fun m => { m with disk := disk.put p (.file kept) }
        openStream (.file p 0 (arrow = .append))
    | none =>
      match disk.write? p [] with
      | some disk =>
        onMachine fun m => { m with disk }
        openStream (.file p 0 (arrow = .append))
      | none => cannotOpenFile "create" name "Directory nonexistent"

/-- The number of the stream that a file opened by an arrow is. -/
def openFile (arrow : Arrow) (name : Octets) : Act Nat := do
  let byPath : Act Nat := if arrow = .read then openToRead name else openToWrite arrow name
  match deviceDescriptor? name with
  | none => byPath
  | some d =>
    match ← stream? d with
    | some n => return n
    | none =>
      if arrow = .read then cannotOpenFile "open" name "No such file"
      else cannotOpenFile "create" name "Directory nonexistent"

/-- A redirection whose words are expanded. -/
inductive Opening where
  | file (descriptor : Nat) (arrow : Arrow) (name : Octets)
  | copy (descriptor source : Nat)
  | close (descriptor : Nat)
  | document (descriptor number : Nat)

/-- What a word makes of a descriptor: a copy of another, or nothing. -/
def copying (descriptor : Nat) (text : Octets) : Act Opening :=
  match text with
  | ['-'] => return .close descriptor
  | [c] =>
    match Text.digit? c with
    | some d => return .copy descriptor d
    | none => abort "Syntax error: Bad fd number".toList
  | _ => abort "Syntax error: Bad fd number".toList

/-- Expands the words of a redirection. -/
def opening (inner : Interpreter) : Redirect → Act Opening
  | .of descriptor (.file arrow path) => return .file descriptor arrow (← expandText inner path)
  | .of descriptor (.copy word) => do copying descriptor (← expandText inner word)
  | .of descriptor (.document number) => return .document descriptor number

/-- Carries out a redirection. -/
def carryOut (inner : Interpreter) : Opening → Act Unit
  | .file descriptor arrow name => do setDescriptor descriptor (← openFile arrow name)
  | .copy descriptor source => do
    match ← stream? source with
    | some n => setDescriptor descriptor n
    | none => abort (Octets.ofNat source ++ ": Bad file descriptor".toList)
  | .close descriptor => closeDescriptor descriptor
  | .document descriptor number => do
    let word := ((← get).documents.lookup number).getD []
    setDescriptor descriptor (← openStream (.source (← expandText inner word)))

/-- Does something, and something else after it, however it comes out. -/
def always {α : Type} (after : State → State) (body : Act α) : Act α := fun s =>
  let (result, t) := body s
  (result, after t)

/-- Does something, and takes redirections back after it. -/
def keepingDescriptors {α : Type} (body : Act α) : Act α := do
  let descriptors := (← get).descriptors
  always (fun t => { t with descriptors }) body

/-- Carries out redirections; tells whether all of them could be. -/
def redirects (inner : Interpreter) (os : List Opening) : Act Bool := do
  try
    os.forM (carryOut inner)
    return true
  catch
    | .error => return false
    | h => throw h

end Shell
end ImagePolicy
