/-
# File tools

Tools on files and directories: `ls`, `basename`, `dirname`, `mkdir`, `rmdir`, `rm`, `touch`, `cp`,
`mv`, `chmod`, `realpath`, `mktemp`, `cmp` and `pwd`. A change is made for each operand in order;
one that cannot be made is complained of, and the others are made all the same.

Key definitions: `Shell.listFiles`, `Shell.copyFiles`, `Shell.moveFiles`, `Shell.removeFiles`,
`Shell.changeMode`.
-/
import ImagePolicy.Shell.Tool.Basic

namespace ImagePolicy
namespace Shell

/-- The text of a name on the disk. -/
def nameText (name : String) : Octets := Octets.ofString name

/-- The message that no operand is given. -/
def missingOperands (tool what : String) (g : Given) : Result :=
  g.complain 1 (withHint tool ("missing ".toList ++ what.toList))

/-! ### Listing -/

/-- Names without the hidden ones. -/
def visible (names : List String) : List String :=
  names.filter fun n => !n.startsWith "."

/-- The sign behind a name that tells what it leads to. -/
def kindSign (o : Options) (d : Disk) (p : Path) : Octets :=
  if !o.hasAny "Fp" then []
  else if d.isDirectory p then ['/']
  else if o.has 'F' ∧ d.isRunnable p then ['*']
  else []

/-- The names of a directory that are listed, with the paths they lead to. -/
def listedNames (o : Options) (d : Disk) (p : Path) : List (Octets × Path) :=
  let names := d.names p
  let names := if o.hasAny "aA" then names else visible names
  let own := (names.map fun n => (nameText n, p ++ [n])).mergeSort fun a b => !decide (b.1 < a.1)
  let dots := if o.has 'a' then [(['.'], p), (['.', '.'], p.dropLast)] else []
  let all := dots ++ own
  if o.has 'r' ∧ !o.has 'U' then all.reverse else all

/-- The lines for names. -/
def listing (o : Options) (d : Disk) (names : List (Octets × Path)) : Octets :=
  names.flatMap fun (n, p) => n ++ kindSign o d p ++ (if o.has 'm' then [','] else []) ++ ['\n']

/-- The directories below one that are listed as well, each as it is written. -/
def listedBelow (o : Options) (d : Disk) : Nat → Octets → Path → List (Octets × Path)
  | 0, _, _ => []
  | fuel + 1, written, p =>
    let inside := (listedNames o d p).filter fun (n, q) =>
      d.isDirectory q && n != ['.'] && n != ['.', '.']
    (written, p) :: inside.flatMap fun (n, q) =>
      listedBelow o d fuel (if written = ['/'] then '/' :: n else written ++ '/' :: n) q

/-- Writes the names in directories, and the operands that are files. -/
def listFiles : Tool := fun g =>
  withOptions "ls" 2
    ⟨"1aAbBcCdfFghHiIklLmnNopqQrRsStTuUvwxXZ",
      [("all", 'a'), ("almost-all", 'A'), ("directory", 'd'), ("classify", 'F'), ("reverse", 'r'),
        ("recursive", 'R'), ("color", 'N')]⟩ g fun o operands =>
    let operands := if operands.isEmpty then [['.']] else operands
    let inOrder := operands.mergeSort fun a b => !decide (b < a)
    let inOrder := if o.has 'r' then inOrder.reverse else inOrder
    let r := operands.foldl (fun (r : Result) name =>
      if (g.node? name).isNone then r.fail 2 (cannot "ls" "access" name (g.absence name).message)
      else r) (g.finish 0)
    let found := inOrder.filterMap fun name =>
      match g.resolve? name, g.node? name with
      | some p, some node => some (name, p, node)
      | _, _ => none
    let isListed : Node → Bool := fun node => node = .directory && !o.has 'd'
    let files := found.filterMap fun (name, p, node) =>
      if isListed node then none else some (name, p)
    let directories := found.filterMap fun (name, p, node) =>
      if isListed node then some (name, p) else none
    let directories :=
      if o.has 'R' then
        directories.flatMap fun (name, p) => listedBelow o g.disk (g.disk.entries.length + 1) name p
      else directories
    let titled : Bool := 1 < operands.length || o.has 'R'
    let blocks := (if files.isEmpty then [] else [listing o g.disk files]) ++
      directories.map fun (name, p) =>
        (if titled then name ++ ":\n".toList else []) ++ listing o g.disk (listedNames o g.disk p)
    r.say (Octets.join ['\n'] blocks)

/-! ### Parts of paths -/

/-- A path without the slashes that it ends with. -/
def trimSlashes (o : Octets) : Octets :=
  let kept := (o.reverse.dropWhile (· = '/')).reverse
  if kept.isEmpty ∧ !o.isEmpty then ['/'] else kept

/-- The last component of a path, without a suffix. -/
def baseName (suffix path : Octets) : Octets :=
  let path := trimSlashes path
  let name := match Text.splitLast '/' path with
    | some (_, b) => b
    | none => path
  let name := if name.isEmpty then path else name
  if suffix.isSuffixOf name ∧ suffix.length < name.length then
    name.take (name.length - suffix.length)
  else name

/-- Writes the last components of paths. -/
def lastComponent : Tool := fun g =>
  withOptions "basename" 1 ⟨"as:z", [("multiple", 'a'), ("suffix", 's')]⟩ g fun o operands =>
    let suffix := (o.value? 's').getD []
    match operands with
    | [] => missingOperands "basename" "operand" g
    | paths =>
      if o.hasAny "as" then g.say (Octets.unlines (paths.map (baseName suffix)))
      else match paths with
        | _ :: _ :: extra :: _ =>
          g.complain 1 (withHint "basename" ("extra operand ".toList ++ quotedName extra))
        | path :: more => g.say (baseName (more.headD []) path ++ ['\n'])
        | [] => g.finish 0

/-- A path without its last component. -/
def parentOf (path : Octets) : Octets :=
  match Text.splitLast '/' (trimSlashes path) with
  | some ([], _) => ['/']
  | some (parent, _) => trimSlashes parent
  | none => ['.']

/-- Writes paths without their last components. -/
def parentPath : Tool := fun g =>
  withOptions "dirname" 1 ⟨"z", []⟩ g fun _ operands =>
    if operands.isEmpty then missingOperands "dirname" "operand" g
    else g.say (Octets.unlines (operands.map parentOf))

/-- Writes the paths that its operands lead to. -/
def realPath (tool : String) : Tool := fun g =>
  withOptions tool 1 ⟨"emfnqsz", []⟩ g fun o operands =>
    if operands.isEmpty then missingOperands tool "operand" g
    else if tool = "readlink" ∧ !o.hasAny "emf" then g.finish 1
    else operands.foldl (fun (r : Result) name =>
      match g.resolve? name with
      | some p =>
        if o.has 'e' ∧ (g.disk.node? p).isNone then
          r.fail 1 (about tool name FileFault.missing.message)
        else r.say (nameText (Path.text p) ++ (if o.has 'n' then [] else ['\n']))
      | none => r.fail 1 (about tool name (g.absence name).message)) (g.finish 0)

/-- Writes the directory that relative paths start from. -/
def currentDirectory : Tool := fun g =>
  g.say (nameText (Path.text g.directory) ++ ['\n'])

/-! ### Changes -/

/-- Applies a change for each operand in order; a change that cannot be made is complained of. -/
def eachChange (g : Given) (change : Disk → Octets → Except (Option Octets) Disk)
    (operands : List Octets) : Result :=
  operands.foldl (fun (r : Result) name =>
    match change r.disk name with
    | .ok disk => { r with disk }
    | .error none => r
    | .error (some e) => r.fail 1 e) (g.finish 0)

/-- Why nothing is at a path of a disk as it is by now. -/
def absenceOn (g : Given) (d : Disk) (name : Octets) : FileFault :=
  { g with disk := d }.absence name

/-- The disk with a directory and those it is in; or the path of a file in its way. -/
def makeParents (d : Disk) (p : Path) : Except Path Disk :=
  (List.range (p.length + 1)).foldlM (fun d n =>
    let q := p.take n
    if d.isDirectory q then .ok d
    else match d.makeDirectory? q with
      | some d => .ok d
      | none => .error q) d

/-- The path that a written one leads to from a directory step by step, whether or not its
directories are there. -/
def plainPath (directory : Path) (name : Octets) : Path :=
  let start := if name.head? = some '/' then [] else directory
  (pathComponents (Octets.toString name)).foldl Disk.enter start

/-- Makes directories. -/
def makeDirectories : Tool := fun g =>
  withOptions "mkdir" 1 ⟨"pvm:Z", [("parents", 'p'), ("mode", 'm'), ("verbose", 'v')]⟩ g
    fun o operands =>
    if operands.isEmpty then missingOperands "mkdir" "operand" g
    else eachChange g (fun d name =>
      let fails : FileFault → Except (Option Octets) Disk := fun e =>
        .error (some (cannot "mkdir" "create directory" name e.message))
      if name.isEmpty then fails .missing
      else if o.has 'p' then
        match makeParents d (plainPath g.directory name) with
        | .ok d => .ok d
        | .error q =>
          let front := (List.range (name.length + 1)).find? fun n =>
            (n = name.length || name[n]? = some '/') && plainPath g.directory (name.take n) = q
          .error (some (cannot "mkdir" "create directory" (name.take (front.getD name.length))
            (if q = plainPath g.directory name then FileFault.present
              else .isNoDirectory).message))
      else match d.resolveFrom? g.directory (Octets.toString name) with
        | none => fails (absenceOn g d name)
        | some p =>
          match d.makeDirectory? p with
          | some d => .ok d
          | none => fails (if (d.node? p).isSome then .present else absenceOn g d name)) operands

/-- Removes directories that are empty. -/
def removeDirectories : Tool := fun g =>
  withOptions "rmdir" 1 ⟨"pv", [("parents", 'p')]⟩ g fun _ operands =>
    if operands.isEmpty then missingOperands "rmdir" "operand" g
    else eachChange g (fun d name =>
      let fails : FileFault → Except (Option Octets) Disk := fun e =>
        .error (some ("rmdir: failed to remove ".toList ++ quotedName name ++ ": ".toList ++
          e.message))
      match (d.resolveFrom? g.directory (Octets.toString name)).map fun p => (p, d.node? p) with
      | some (p, some .directory) =>
        if (d.names p).isEmpty then .ok (d.removeTree p) else fails .notEmpty
      | some (_, some _) => fails .isNoDirectory
      | _ => fails (absenceOn g d name)) operands

/-- Removes files, and directories if asked for. -/
def removeFiles : Tool := fun g =>
  withOptions "rm" 1
    ⟨"dfirRvI", [("force", 'f'), ("recursive", 'r'), ("dir", 'd'), ("verbose", 'v')]⟩ g
    fun o operands =>
    if operands.isEmpty then (if o.has 'f' then g.finish 0 else missingOperands "rm" "operand" g)
    else eachChange g (fun d name =>
      let fails : FileFault → Except (Option Octets) Disk := fun e =>
        .error (some (cannot "rm" "remove" name e.message))
      match (d.resolveFrom? g.directory (Octets.toString name)).map fun p => (p, d.node? p) with
      | some (p, some .directory) =>
        if o.hasAny "rR" then .ok (d.removeTree p)
        else if o.has 'd' then
          (if (d.names p).isEmpty then .ok (d.removeTree p) else fails .notEmpty)
        else fails .isDirectory
      | some (p, some _) => .ok (d.removeTree p)
      | _ => if o.has 'f' then .error none else fails (absenceOn g d name)) operands

/-- Makes files that are not there. -/
def touchFiles : Tool := fun g =>
  withOptions "touch" 1 ⟨"acd:fhmr:t:", [("no-create", 'c'), ("date", 'd'), ("reference", 'r')]⟩ g
    fun o operands =>
    if operands.isEmpty then missingOperands "touch" "file operand" g
    else eachChange g (fun d name =>
      let fails := cannot "touch" "touch" name (absenceOn g d name).message
      match d.resolveFrom? g.directory (Octets.toString name) with
      | none => if o.has 'c' then .error none else .error (some fails)
      | some p =>
        if (d.node? p).isSome ∨ o.has 'c' then .ok d
        else match d.write? p [] with
          | some d => .ok d
          | none => .error (some fails)) operands

/-! ### Copies -/

/-- The disk with a copy of a path and all that it leads through. -/
def copyTree (d : Disk) (source goal : Path) : Disk :=
  let moved : Path → Path := fun p => goal ++ p.drop source.length
  let entries := d.entries.filter fun e => Disk.within source e.1
  let copied := entries.foldl (fun (d : Disk) (p, node) =>
    match node with
    | .directory => d.putDirectory (moved p)
    | node => d.put (moved p) node) d
  entries.foldl (fun d (p, _) => if d.isRunnable p then d.mark (moved p) true else d) copied

/-- The goal of each source of a copy: inside a directory it has the source's name. -/
def goalOf (inside : Bool) (source goal : Octets) : Octets :=
  if inside then
    (if goal.getLast? = some '/' then goal else goal ++ ['/']) ++ baseName [] source
  else goal

/-- Copies or moves sources to a goal, each by a change. -/
def eachCopy (tool : String) (g : Given) (o : Options) (operands : List Octets)
    (change : Disk → Octets → Octets → Except (Option Octets) Disk) : Result :=
  let (sources, goal) := match o.value? 't' with
    | some goal => (operands, some goal)
    | none => (operands.dropLast, operands.getLast?)
  match goal, sources with
  | none, _ => missingOperands tool "file operand" g
  | some goal, [] =>
    g.complain 1 (withHint tool
      ("missing destination file operand after ".toList ++ quotedName goal))
  | some goal, sources =>
    let inside := g.node? goal = some .directory && !o.has 'T'
    if !inside ∧ (1 < sources.length ∨ (o.value? 't').isSome) then
      g.complain 1 (tool.toList ++ ": target ".toList ++ quotedName goal ++ ": ".toList ++
        (if (g.node? goal).isSome then FileFault.isNoDirectory else .missing).message)
    else eachChange g (fun d source => change d source (goalOf inside source goal)) sources

/-- Copies files, and directories if asked for. -/
def copyFiles : Tool := fun g =>
  withOptions "cp" 1
    ⟨"abdfiHlLnPprRst:TuvxZ", [("recursive", 'r'), ("force", 'f'), ("archive", 'a'),
      ("no-clobber", 'n'), ("target-directory", 't'), ("parents", 'b'), ("verbose", 'v')]⟩ g
    fun o operands =>
    eachCopy "cp" g o operands fun d source goal =>
      let resolve : Octets → Option Path := fun name =>
        d.resolveFrom? g.directory (Octets.toString name)
      match (resolve source).map fun p => (p, d.node? p), resolve goal with
      | some (p, some .directory), some q =>
        if !o.hasAny "arR" then
          .error (some ("cp: -r not specified; omitting directory ".toList ++ quotedName source))
        else if Disk.within p q then
          .error (some ("cp: cannot copy a directory, ".toList ++ quotedName source ++
            ", into itself, ".toList ++ quotedName goal))
        else if (d.node? q).isSome ∧ !d.isDirectory q then
          .error (some ("cp: cannot overwrite non-directory ".toList ++ quotedName goal ++
            " with directory ".toList ++ quotedName source))
        else if !d.isDirectory q.dropLast then
          .error (some (cannot "cp" "create directory" goal FileFault.missing.message))
        else .ok (copyTree d p q)
      | some (p, some _), some q =>
        if p = q then
          .error (some ("cp: ".toList ++ quotedName source ++ " and ".toList ++ quotedName goal ++
            " are the same file".toList))
        else if o.has 'n' ∧ (d.node? q).isSome then .error none
        else if d.isDirectory q then
          .error (some ("cp: cannot overwrite directory ".toList ++ quotedName goal ++
            " with non-directory".toList))
        else
          let content := (d.content? p).getD []
          match d.write? q content with
          | some e =>
            .ok (if (d.node? q).isNone ∨ o.hasAny "ap" then e.mark q (d.isRunnable p) else e)
          | none =>
            .error (some (cannot "cp" "create regular file" goal (absenceOn g d goal).message))
      | some (_, some _), none =>
        .error (some (cannot "cp" "create regular file" goal (absenceOn g d goal).message))
      | _, _ => .error (some (cannot "cp" "stat" source (absenceOn g d source).message))

/-- Moves files and directories. -/
def moveFiles : Tool := fun g =>
  withOptions "mv" 1 ⟨"bfint:TuvZ", [("force", 'f'), ("no-clobber", 'n'),
      ("target-directory", 't'), ("verbose", 'v')]⟩ g fun o operands =>
    eachCopy "mv" g o operands fun d source goal =>
      let resolve : Octets → Option Path := fun name =>
        d.resolveFrom? g.directory (Octets.toString name)
      let cannotMove : FileFault → Except (Option Octets) Disk := fun e =>
        .error (some ("mv: cannot move ".toList ++ quotedName source ++ " to ".toList ++
          quotedName goal ++ ": ".toList ++ e.message))
      match (resolve source).map fun p => (p, d.node? p), resolve goal with
      | some (p, some node), some q =>
        if p = q then
          .error (some ("mv: ".toList ++ quotedName source ++ " and ".toList ++ quotedName goal ++
            " are the same file".toList))
        else if o.has 'n' ∧ (d.node? q).isSome then .error none
        else if node = .directory ∧ Disk.within p q then
          .error (some ("mv: cannot move ".toList ++ quotedName source ++
            " to a subdirectory of itself, ".toList ++ quotedName goal))
        else if !d.isDirectory q.dropLast then cannotMove (absenceOn g d goal)
        else match node, d.node? q with
          | .directory, some .directory =>
            if (d.names q).isEmpty then .ok ((copyTree (d.removeTree q) p q).removeTree p)
            else cannotMove .notEmpty
          | .directory, some _ =>
            .error (some ("mv: cannot overwrite non-directory ".toList ++ quotedName goal ++
              " with directory ".toList ++ quotedName source))
          | _, some .directory =>
            .error (some ("mv: cannot overwrite directory ".toList ++ quotedName goal ++
              " with non-directory".toList))
          | _, _ => .ok ((copyTree (d.removeTree q) p q).removeTree p)
      | some (_, some _), none => cannotMove (absenceOn g d goal)
      | _, _ => .error (some (cannot "mv" "stat" source (absenceOn g d source).message))

/-- Makes another name for files, which gets a content of its own here. -/
def linkFiles : Tool := fun g =>
  withOptions "ln" 1 ⟨"fnrst:Tv", [("symbolic", 's'), ("force", 'f')]⟩ g fun o operands =>
    eachCopy "ln" g o operands fun d source goal =>
      let kind := if o.has 's' then "create symbolic link" else "create hard link"
      let fails : FileFault → Except (Option Octets) Disk := fun e =>
        .error (some ("ln: failed to ".toList ++ kind.toList ++ ' ' :: quotedName goal ++
          ": ".toList ++ e.message))
      let resolve : Octets → Option Path := fun name =>
        d.resolveFrom? g.directory (Octets.toString name)
      match (resolve source).map fun p => (p, d.node? p), resolve goal with
      | some (p, some _), some q =>
        if (d.node? q).isSome ∧ !o.has 'f' then fails .present
        else if !d.isDirectory q.dropLast then fails .missing
        else .ok (copyTree d p q)
      | _, _ =>
        .error (some ("ln: failed to access ".toList ++ quotedName source ++ ": ".toList ++
          FileFault.missing.message))

/-! ### Modes -/

/-- Whether a file can be run after a clause of a mode, if it could or could not before. -/
def clauseRuns (runs : Bool) (clause : Octets) : Option Bool :=
  let rest := clause.dropWhile fun c => ['u', 'g', 'o', 'a'].contains c
  match rest with
  | sign :: letters =>
    if !(['+', '-', '='].contains sign) ∨ !letters.all "rwxXstugo".toList.contains then none
    else
      let hasX := letters.contains 'x' || (letters.contains 'X' && runs)
      match sign with
      | '+' => some (runs || hasX)
      | '-' => some (runs && !letters.contains 'x')
      | _ => some hasX
  | [] => none

/-- Whether a file can be run once it has a mode, if it could or could not before. -/
def modeRuns? (mode : Octets) (runs : Bool) : Option Bool :=
  if !mode.isEmpty ∧ mode.all (fun c => (octalDigit? c).isSome) then
    some ((mode.reverse.take 3).any fun c => ((octalDigit? c).getD 0) % 2 = 1)
  else (Text.split ',' mode).foldlM clauseRuns runs

/-- Changes what can be run. -/
def changeMode : Tool := fun g =>
  let isMode : Octets → Bool := fun a =>
    match a with
    | '-' :: c :: _ => ['r', 'w', 'x', 'X', 's', 't'].contains c && a ≠ ['-', 'r']
    | _ => false
  let arguments := g.arguments.map fun a => if isMode a then 'a' :: a else a
  withOptions "chmod" 1 ⟨"Rvcf", [("recursive", 'R')]⟩ { g with arguments } fun o operands =>
    match operands with
    | [] => missingOperands "chmod" "operand" g
    | [mode] => g.complain 1 (withHint "chmod" ("missing operand after ".toList ++ quotedName mode))
    | mode :: names =>
      if (modeRuns? mode false).isNone then
        g.complain 1 (withHint "chmod" ("invalid mode: ".toList ++ quotedName mode))
      else eachChange g (fun d name =>
        match (d.resolveFrom? g.directory (Octets.toString name)).map fun p => (p, d.node? p) with
        | some (p, some _) =>
          let chosen := if o.has 'R' then
            (d.entries.filter fun e => Disk.within p e.1).map Prod.fst else [p]
          .ok (chosen.foldl (fun (d : Disk) p =>
            if (d.fileContent? p).isSome then
              d.mark p ((modeRuns? mode (d.isRunnable p)).getD false)
            else d) d)
        | _ => .error (some (cannot "chmod" "access" name (absenceOn g d name).message))) names

/-! ### Other tools -/

/-- Makes a file or a directory whose name is not taken. -/
def makeTemporary : Tool := fun g =>
  withOptions "mktemp" 1
    ⟨"dqutp:", [("directory", 'd'), ("dry-run", 'u'), ("quiet", 'q'), ("tmpdir", 'p')]⟩ g
    fun o operands =>
    let template := operands.headD "tmp.XXXXXXXXXX".toList
    let marks := (template.reverse.takeWhile (· = 'X')).length
    if marks < 3 then
      g.complain 1 ("mktemp: too few X's in template ".toList ++ quotedName template)
    else
      let inScratch := operands.isEmpty || o.hasAny "tp"
      let directory := (o.value? 'p').getD (nameText (Path.text Disk.scratchDirectory))
      let base := template.take (template.length - marks)
      let nameOf : Nat → Octets := fun n =>
        let name := base ++ Text.padded marks n
        if inScratch then directory ++ '/' :: name else name
      let free := (List.range (g.disk.entries.length + 1)).find? fun n =>
        (g.node? (nameOf n)).isNone
      let name := nameOf (free.getD 0)
      let made := match g.resolve? name with
        | none => none
        | some p =>
          if o.has 'u' then some g.disk
          else if o.has 'd' then g.disk.makeDirectory? p else g.disk.write? p []
      match made with
      | some disk => { g.say (name ++ ['\n']) with disk }
      | none =>
        g.complain 1 ("mktemp: failed to create file via template ".toList ++
          quotedName template ++ ": ".toList ++ FileFault.missing.message)

/-- Tells whether two files have the same content, and where they differ first. -/
def compareFiles : Tool := fun g =>
  withOptions "cmp" 2 ⟨"bls", [("silent", 's'), ("quiet", 's')]⟩ g fun o operands =>
    let operands := if operands.length = 1 then operands ++ [['-']] else operands
    match operands with
    | [a, b] =>
      match g.read a, g.read b with
      | .error e, _ => g.complain 2 (about "cmp" a e.message)
      | _, .error e => g.complain 2 (about "cmp" b e.message)
      | .ok x, .ok y =>
        let same := (List.zip x y).takeWhile fun (c, d) => c = d
        let n := same.length
        let line := (same.filter fun (c, _) => c = '\n').length + 1
        if x = y then g.finish 0
        else if o.has 's' then g.finish 1
        else if n = x.length ∨ n = y.length then
          g.complain 1 ("cmp: EOF on ".toList ++ (if n = x.length then a else b) ++
            (if n = 0 then " which is empty".toList
              else " after byte ".toList ++ Octets.ofNat n ++
                (if (same.getLast?.map Prod.fst) = some '\n' then ", line ".toList else
                  ", in line ".toList) ++
                Octets.ofNat (if (same.getLast?.map Prod.fst) = some '\n' then line - 1 else line)))
        else { g.finish 1 with status := 1 }.say (a ++ ' ' :: b ++ " differ: char ".toList ++
            Octets.ofNat (n + 1) ++ ", line ".toList ++ Octets.ofNat line ++ ['\n'])
    | _ => missingOperands "cmp" "operand after 'cmp'" g

end Shell
end ImagePolicy
