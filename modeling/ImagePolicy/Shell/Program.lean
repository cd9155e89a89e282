/-
# Programs

The programs that can be started: the tools and the launchers of other programs, which are found in
the directories of programs, and files that can be run. A file that begins with `#!` names the
program that runs it; any other file is run by a shell. A name without a slash is looked for in the
directories that `PATH` lists.

Key definitions: `Shell.tools`, `Shell.Launch`, `Shell.State.launch?`, `Shell.runTool`.
-/
import ImagePolicy.Shell.Redirection
import ImagePolicy.Shell.Tool.Print
import ImagePolicy.Shell.Tool.Text
import ImagePolicy.Shell.Tool.Exchange
import ImagePolicy.Shell.Tool.Order
import ImagePolicy.Shell.Tool.Field
import ImagePolicy.Shell.Tool.Match
import ImagePolicy.Shell.Tool.Editing
import ImagePolicy.Shell.Tool.File

namespace ImagePolicy
namespace Shell

/-! ### Names -/

/-- Ends well or not, and does nothing else. -/
def ends (status : Nat) : Tool := fun g => g.finish status

/-- Writes who runs it. -/
def userIds : Tool := fun g =>
  withOptions "id" 1 ⟨"unGgr", [("user", 'u'), ("name", 'n'), ("group", 'g')]⟩ g fun o _ =>
    let kind := o.hasAny "uGg"
    g.say ((if !kind then "uid=0(root) gid=0(root) groups=0(root)"
      else if o.has 'n' then "root" else "0").toList ++ ['\n'])

/-- Writes a text whatever its arguments are. -/
def tells (text : String) : Tool := fun g => g.say (text.toList ++ ['\n'])

/-- The tools. -/
def tools : List (String × Tool) :=
  [("true", ends 0), ("false", ends 1), ("echo", echo), ("printf", printf), ("yes", yes),
    ("seq", sequence), ("expr", calculate), ("printenv", printEnvironment), ("sleep", sleep),
    ("cat", cat), ("head", headOf), ("tail", tailOf), ("tac", tac), ("rev", rev), ("nl", nl),
    ("fold", foldLines), ("tee", tee), ("wc", countOf), ("tr", exchange), ("sort", sortLines),
    ("uniq", uniqueLines), ("comm", commonLines), ("cut", cutLines), ("paste", pasteLines),
    ("grep", selectLines "grep"), ("egrep", selectLines "egrep"), ("fgrep", selectLines "fgrep"),
    ("sed", editLines), ("ls", listFiles), ("dir", listFiles), ("basename", lastComponent),
    ("dirname", parentPath), ("readlink", realPath "readlink"),
    ("realpath", realPath "realpath"), ("pwd", currentDirectory), ("mkdir", makeDirectories),
    ("rmdir", removeDirectories), ("rm", removeFiles), ("touch", touchFiles), ("cp", copyFiles),
    ("mv", moveFiles), ("ln", linkFiles), ("chmod", changeMode), ("chown", ends 0),
    ("mktemp", makeTemporary), ("cmp", compareFiles), ("sync", ends 0), ("whoami", tells "root"),
    ("arch", tells "x86_64"), ("id", userIds)]

/-- The programs that start other programs, or need what only a process has. -/
def launcherNames : List String :=
  ["sh", "dash", "env", "xargs", "timeout", "nice", "nohup", "setsid", "stdbuf", "find", "which",
    "kill", "test", "["]

/-- Whether a program has a name. -/
def isProgramName (name : String) : Bool :=
  launcherNames.contains name || tools.any fun t => t.1 = name

/-- The directories that programs are found in. -/
def programDirectories : List Path := [["bin"], ["usr", "bin"]]

/-- The name of the program at a path. -/
def programName? (d : Disk) (p : Path) : Option String :=
  match p.getLast? with
  | some name =>
    if programDirectories.contains p.dropLast ∧ isProgramName name ∧ (d.node? p).isNone then
      some name
    else none
  | none => none

/-! ### Finding -/

/-- Why a program cannot be started. -/
inductive ProgramFault where
  | missing
  | denied
  deriving DecidableEq, Repr

/-- The status of a command whose program cannot be started. -/
def ProgramFault.status : ProgramFault → Nat
  | .missing => 127
  | .denied => 126

/-- The wording of a tool for a program that cannot be started. -/
def ProgramFault.message : ProgramFault → Octets
  | .missing => FileFault.missing.message
  | .denied => "Permission denied".toList

/-- What a path leads to that can be started: a program, or a file that can be run, which may name
the program that runs it. -/
inductive Startable where
  | named (name : String)
  | script (interpreter : Option (List Octets))

/-- The program and its argument that a file names on its first line. -/
def interpreterOf (content : Octets) : Option (List Octets) :=
  match content with
  | '#' :: '!' :: o =>
    let isBlank : Char → Bool := fun c => c = ' ' || c = '\t'
    let line := (o.takeWhile (· ≠ '\n')).dropWhile isBlank
    let name := line.takeWhile fun c => !isBlank c
    let argument := ((line.drop name.length).dropWhile isBlank).reverse.dropWhile isBlank
    if name.isEmpty then none
    else some (if argument.isEmpty then [name] else [name, argument.reverse])
  | _ => none

/-- What can be started at a path. -/
def startableAt (d : Disk) (p : Path) : Except ProgramFault Startable :=
  match programName? d p with
  | some name => .ok (.named name)
  | none =>
    match d.node? p with
    | none => .error .missing
    | some node =>
      match node, d.isRunnable p with
      | .file content, true => .ok (.script (interpreterOf (.ofBytes content)))
      | _, _ => .error .denied

/-- The paths that a name may stand for: itself if it has a slash, or in the directories of a search
path. -/
def candidates (searchPath name : Octets) : List Octets :=
  if name.contains '/' then [name]
  else (Text.split ':' searchPath).map fun directory =>
    if directory.isEmpty then name
    else if directory.getLast? = some '/' then directory ++ name
    else directory ++ '/' :: name

/-- What a name stands for that can be started, and the path it was found at. -/
def State.startable? (s : State) (searchPath name : Octets) :
    Except ProgramFault (Octets × Startable) :=
  let tried := (candidates searchPath name).map fun written =>
    match s.resolve? written with
    | some p => (startableAt s.machine.disk p).map fun found => (written, found)
    | none => .error .missing
  let isOk : Except ProgramFault (Octets × Startable) → Bool := fun r =>
    match r with
    | .ok _ => true
    | .error _ => false
  match tried.find? isOk with
  | some found => found
  | none =>
    .error (if tried.any fun r => match r with | .error .denied => true | _ => false then .denied
      else .missing)

/-- The usual search path. -/
def usualSearchPath : Octets :=
  "/usr/local/sbin:/usr/local/bin:/usr/sbin:/usr/bin:/sbin:/bin".toList

/-- The search path; if there is none, only the directory that the shell is in counts. -/
def State.searchPath (s : State) : Octets :=
  (s.value? "PATH".toList).getD []

/-! ### Starting -/

/-- A program to be started with its arguments, its own name first. -/
structure Launch where
  program : String
  arguments : List Octets

/-- What arguments start: the first names the program. So many files may name one another. -/
def State.launchAt? (s : State) : Nat → List Octets → Except ProgramFault Launch
  | _, [] => .error .missing
  | 0, _ => .error .denied
  | fuel + 1, name :: arguments => do
    match ← s.startable? s.searchPath name with
    | (_, .named program) => .ok ⟨program, name :: arguments⟩
    | (written, .script none) => .ok ⟨"sh", "/bin/sh".toList :: written :: arguments⟩
    | (written, .script (some interpreter)) =>
      launchAt? s fuel (interpreter ++ written :: arguments)

/-- What arguments start. -/
def State.launch? (s : State) (arguments : List Octets) : Except ProgramFault Launch :=
  s.launchAt? 4 arguments

/-! ### Tools -/

/-- Writes what a tool has written; tells whether all of it could be. -/
def writeAll (written : List (Nat × Octets)) : Act Bool :=
  written.foldlM (fun done (descriptor, text) => return (← write descriptor text) && done) true

/-- A message of a tool with the name that the tool was started under. -/
def underName (program : String) (name message : Octets) : Octets :=
  let own := program.toList
  if name = own then message
  else
    let hint : Octets → Option Octets := fun l =>
      let front := "Try '".toList ++ own
      if front.isPrefixOf l then some ("Try '".toList ++ name ++ l.drop front.length) else none
    let line : Octets → Octets := fun l =>
      if (own ++ [':']).isPrefixOf l then name ++ l.drop own.length else (hint l).getD l
    Octets.join ['\n'] ((Text.split '\n' message).map line)

/-- Runs a tool under a name. -/
def runTool (program : String) (name : Octets) (tool : Tool) (arguments : List Octets) :
    Act ExitStatus := do
  let s ← get
  let input ← unread 0
  let fromFile := match ← stream? 0 with
    | some n => match s.machine.stream n with
      | .file _ _ _ => true
      | _ => false
    | none => false
  let r := tool
    ⟨arguments, input, fromFile, s.machine.disk, s.directory, s.environment⟩
  onMachine fun m => { m with disk := r.disk }
  passInput 0 r.taken
  elapse r.duration
  let written := r.written.map fun (d, text) =>
    (d, if d = 2 then underName program name text else text)
  if ← writeAll written then return .code r.status
  else
    let _ ← write 2 (name ++ ": write error: Bad file descriptor\n".toList)
    return .code 1

end Shell
end ImagePolicy
