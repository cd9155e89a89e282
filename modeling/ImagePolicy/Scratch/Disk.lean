/-
# Files and directories

The part of a file system that a verification sees: directories and files by absolute path.
Scratch directories are made under one directory, each with a name that was not used before. A
path that a caller writes is followed from the working directory component by component, so that
what stands before a slash has to be a directory.

Beside files there is the null device, which takes anything and holds nothing. A file may be marked
as one that can be run.

Key definitions: `Path`, `Disk`, `Disk.resolve?`, `Disk.write?`, `Disk.removeTree`,
`Disk.makeScratch`.
-/
import ImagePolicy.Text.Split
import ImagePolicy.Text.Digits
import ImagePolicy.Text.Utf8

namespace ImagePolicy

/-- An absolute path, from the root down. -/
abbrev Path := List String

/-- The written form of a path. -/
def Path.text (p : Path) : String :=
  "/" ++ "/".intercalate p

/-- What a path leads to. -/
inductive Node where
  | directory
  | file (content : Bytes)
  | null
  deriving DecidableEq, Repr

/-- The components of a written path. -/
def pathComponents (text : String) : List String :=
  (Text.split '/' text.toList).map .ofList

/-- The name that a written path ends in; the parent directory and the root have none. -/
def fileName? (text : String) : Option String :=
  match ((pathComponents text).filter fun c => c ≠ "" ∧ c ≠ ".").getLast? with
  | some name => if name = ".." then none else some name
  | none => none

/-- Files and directories, how many scratch directories there have been, and which files can be
run. -/
structure Disk where
  entries : List (Path × Node)
  scratches : Nat
  runnable : List Path

namespace Disk

/-- The directory that relative paths start from. -/
def workingDirectory : Path := ["work"]

/-- The directory that scratch directories are made in. -/
def scratchDirectory : Path := ["tmp"]

/-- The directories that every disk has. -/
def systemDirectories : List Path :=
  [scratchDirectory, workingDirectory, ["bin"], ["dev"], ["etc"], ["home"], ["proc"], ["root"],
    ["sbin"], ["usr"], ["usr", "bin"], ["usr", "lib"], ["usr", "local"], ["usr", "local", "bin"],
    ["usr", "sbin"], ["usr", "share"], ["var"], ["var", "tmp"]]

/-- The paths of the null device; what a program without input reads is one of them. -/
def nullDevices : List Path := [["dev", "null"], ["dev", "stdin"]]

/-- A disk with an empty working directory. -/
def blank : Disk where
  entries := systemDirectories.map (·, .directory) ++ nullDevices.map (·, .null)
  scratches := 0
  runnable := []

/-- What a path leads to. -/
def node? (d : Disk) (p : Path) : Option Node :=
  if p = [] then some .directory else d.entries.lookup p

/-- Whether a path leads to a directory. -/
def isDirectory (d : Disk) (p : Path) : Bool :=
  d.node? p = some .directory

/-- What is read at a path. -/
def content? (d : Disk) (p : Path) : Option Bytes :=
  match d.node? p with
  | some (.file content) => some content
  | some .null => some []
  | _ => none

/-- The content of a file that can be copied; a device cannot. -/
def fileContent? (d : Disk) (p : Path) : Option Bytes :=
  match d.node? p with
  | some (.file content) => some content
  | _ => none

/-- The disk with a node at a path, whatever was there before. -/
def put (d : Disk) (p : Path) (n : Node) : Disk :=
  { d with entries := d.entries.filter (fun e => e.1 ≠ p) ++ [(p, n)] }

/-- Writes a file into a directory that is there; a directory is not overwritten, and the null
device stays as it is. -/
def write? (d : Disk) (p : Path) (content : Bytes) : Option Disk :=
  if d.node? p = some .null then some d
  else if p ≠ [] ∧ d.isDirectory p.dropLast ∧ !d.isDirectory p then
    some (d.put p (.file content))
  else none

/-- Makes a directory in one that is there. -/
def makeDirectory? (d : Disk) (p : Path) : Option Disk :=
  if p ≠ [] ∧ d.isDirectory p.dropLast ∧ (d.node? p).isNone then some (d.put p .directory)
  else none

/-- Whether a path is another or leads through it. -/
def within (root p : Path) : Bool :=
  root.isPrefixOf p

/-- The disk without a path and all that it leads through. -/
def removeTree (d : Disk) (root : Path) : Disk :=
  { d with
    entries := d.entries.filter fun e => !within root e.1
    runnable := d.runnable.filter fun p => !within root p }

/-- The disk with a file marked as one that can be run, or not. -/
def mark (d : Disk) (p : Path) (runs : Bool) : Disk :=
  let others := d.runnable.filter (· ≠ p)
  { d with runnable := if runs then p :: others else others }

/-- Whether a path leads to a file that can be run. -/
def isRunnable (d : Disk) (p : Path) : Bool :=
  (d.fileContent? p).isSome && d.runnable.contains p

/-- The path of the next scratch directory. Its name ends in six characters. -/
def nextScratch (d : Disk) (label : String) : Path :=
  scratchDirectory ++ [label ++ String.ofList (Text.padded 6 d.scratches)]

/-- Makes a scratch directory. -/
def makeScratch (d : Disk) (label : String) : Path × Disk :=
  let p := d.nextScratch label
  (p, { d.put p .directory with scratches := d.scratches + 1 })

/-- Strings in ascending order. -/
def ascending (names : List String) : List String :=
  names.mergeSort fun a b => decide (a ≤ b)

/-- The names in a directory, in ascending order. -/
def names (d : Disk) (p : Path) : List String :=
  ascending <| d.entries.filterMap fun e =>
    if e.1 ≠ [] ∧ e.1.dropLast = p then e.1.getLast? else none

/-- The files that a path leads through, relative to it and in ascending order. -/
def filesWithin (d : Disk) (root : Path) : List String :=
  ascending <| d.entries.filterMap fun e =>
    match e.2 with
    | .file _ => if within root e.1 then some ("/".intercalate (e.1.drop root.length)) else none
    | _ => none

/-- Follows the components of a path from a directory. -/
def follow? (d : Disk) : Path → List String → Option Path
  | p, [] => some p
  | p, c :: cs =>
    if !d.isDirectory p then none
    else if c = "" ∨ c = "." then follow? d p cs
    else if c = ".." then follow? d p.dropLast cs
    else follow? d (p ++ [c]) cs

/-- Where a written path leads from a directory, whether or not anything is there. -/
def resolveFrom? (d : Disk) (start : Path) (text : String) : Option Path :=
  if text = "" ∨ text.toList.contains '\x00' then none
  else d.follow? (if text.startsWith "/" then [] else start) (pathComponents text)

/-- Where a written path leads from the working directory. -/
def resolve? (d : Disk) (text : String) : Option Path :=
  d.resolveFrom? workingDirectory text

/-- The content of what a written path leads to. -/
def read? (d : Disk) (text : String) : Option Bytes :=
  (d.resolve? text).bind d.content?

/-- The text of the file that a written path leads to, if it is UTF-8. -/
def readText? (d : Disk) (text : String) : Option String :=
  (d.read? text).bind fun content => (Utf8.text? content).map .ofList

/-- Goes on from a path by a component. -/
def enter (p : Path) (component : String) : Path :=
  if component = "" ∨ component = "." then p
  else if component = ".." then p.dropLast
  else p ++ [component]

/-- The disk with a directory at a path, unless something is there. -/
def putDirectory (d : Disk) (p : Path) : Disk :=
  if (d.node? p).isSome then d else d.put p .directory

/-- The disk with a file at a written path, and with the directories that lead to it. -/
def install (d : Disk) (text : String) (content : Bytes) : Disk :=
  let start := if text.startsWith "/" then [] else workingDirectory
  let (d, p) := (pathComponents text).dropLast.foldl
    (fun (d, p) c => let p := enter p c; (putDirectory d p, p)) (d, start)
  d.put (enter p ((pathComponents text).getLastD "")) (.file content)

end Disk
end ImagePolicy
