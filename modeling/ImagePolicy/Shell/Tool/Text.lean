/-
# Text tools

Tools that write what they read, or parts of it: `cat`, `head`, `tail`, `tac`, `rev`, `nl`, `fold`,
`tee`, and `wc`, which counts.

Key definitions: `Shell.cat`, `Shell.headOf`, `Shell.tailOf`, `Shell.countOf`.
-/
import ImagePolicy.Shell.Tool.Basic

namespace ImagePolicy
namespace Shell

/-- A text as lines that keep their line breaks. -/
def keptLines (o : Octets) : List Octets :=
  let parts := Text.split '\n' o
  let broken := parts.dropLast.map (· ++ ['\n'])
  match parts.getLast? with
  | some (c :: cs) => broken ++ [c :: cs]
  | _ => broken

/-- A text with blanks before it up to a width. -/
def padLeft (width : Nat) (o : Octets) : Octets :=
  List.replicate (width - o.length) ' ' ++ o

/-! ### Showing -/

/-- A byte that is not printable, made visible. -/
def visibleByte (c : Char) : Octets :=
  let n := c.toNat
  let low : Nat → Octets := fun n =>
    if n < 32 then ['^', Char.ofNat (n + 64)] else if n = 127 then ['^', '?'] else [Char.ofNat n]
  if c = '\n' ∨ c = '\t' then [c]
  else if 128 ≤ n then 'M' :: '-' :: low (n - 128) else low n

/-- What options of `cat` make of lines. -/
def shownLines (o : Options) (lines : List Octets) : List Octets :=
  let squeezed :=
    if o.has 's' then
      (lines.zip ([] :: lines)).filterMap fun (l, before) =>
        if l = ['\n'] ∧ before = ['\n'] then none else some l
    else lines
  let shown : Octets → Octets := fun l =>
    let body := if l.getLast? = some '\n' then l.dropLast else l
    let body := if o.hasAny "vAet" then body.flatMap visibleByte else body
    let body :=
      if o.hasAny "TAt" then body.flatMap fun c => if c = '\t' then ['^', 'I'] else [c] else body
    body ++
      (if l.getLast? = some '\n' then (if o.hasAny "EAe" then ['$', '\n'] else ['\n']) else [])
  let number : Nat → Octets := fun n => padLeft 6 (Octets.ofNat n) ++ ['\t']
  let numbered : Nat × List Octets → Octets → Nat × List Octets := fun (n, done) l =>
    if o.has 'b' then
      (if l = ['\n'] then (n, shown l :: done) else (n + 1, (number n ++ shown l) :: done))
    else if o.has 'n' then (n + 1, (number n ++ shown l) :: done)
    else (n, shown l :: done)
  (squeezed.foldl numbered (1, [])).2.reverse

/-- Writes its operands one after the other. -/
def cat : Tool := fun g =>
  withOptions "cat" 1
    ⟨"AbeEnstTuv", [("number", 'n'), ("number-nonblank", 'b'), ("show-all", 'A'),
      ("show-ends", 'E'), ("show-tabs", 'T'), ("squeeze-blank", 's')]⟩ g fun o operands =>
    let r := contents (plainWording "cat") 1 g operands
    if o.hasAny "AbeEnstTv" then r.withOutput (shownLines o (keptLines r.output)).flatten else r

/-! ### Beginnings and ends -/

/-- How much of a text is asked for. -/
inductive Amount where
  | first (n : Nat)
  | allButLast (n : Nat)
  | last (n : Nat)
  | fromNumber (n : Nat)

/-- The part of items that is asked for. -/
def Amount.of {α : Type} (a : Amount) (items : List α) : List α :=
  match a with
  | .first n => items.take n
  | .allButLast n => items.take (items.length - n)
  | .last n => items.drop (items.length - n)
  | .fromNumber n => items.drop (n - 1)

/-- A number with a letter that multiplies it. -/
def multiplied? (o : Octets) : Option Nat :=
  let digits := o.takeWhile Char.isDigit
  let factor : Option Nat := match String.ofList (o.drop digits.length) with
    | "" => some 1
    | "b" => some 512
    | "k" => some 1024
    | "K" => some 1024
    | "kB" => some 1000
    | "M" => some 1048576
    | _ => none
  match Octets.toNat? digits, factor with
  | some n, some f => some (n * f)
  | _, _ => none

/-- The amount that `head` is asked for. -/
def headAmount? : Octets → Option Amount
  | '-' :: o => (multiplied? o).map .allButLast
  | '+' :: o => (multiplied? o).map .first
  | o => (multiplied? o).map .first

/-- The amount that `tail` is asked for. -/
def tailAmount? : Octets → Option Amount
  | '-' :: o => (multiplied? o).map .last
  | '+' :: o => (multiplied? o).map .fromNumber
  | o => (multiplied? o).map .last

/-- The arguments, with a number of lines after a sign as the option it stands for. -/
def withLineOption (signs : List Char) (as : List Octets) : List Octets :=
  match as with
  | (sign :: c :: cs) :: rest =>
    if signs.contains sign ∧ (c :: cs).all Char.isDigit then
      ['-', 'n'] :: (if sign = '-' then c :: cs else sign :: c :: cs) :: rest
    else as
  | as => as

/-- Writes the part of its operands that is asked for, each under its name if there are several. -/
def partOf (tool : String) (amount? : Octets → Option Amount) (usual : Amount)
    (signs : List Char) : Tool := fun g =>
  let g := { g with arguments := withLineOption signs g.arguments }
  withOptions tool 1
    ⟨"c:n:qvzfF", [("lines", 'n'), ("bytes", 'c'), ("quiet", 'q'), ("verbose", 'v')]⟩ g
    fun o operands =>
    let asked := o.reverse.find? fun p => p.1 = 'c' ∨ p.1 = 'n'
    let amount? : Option (Bool × Amount) := match asked with
      | none => some (false, usual)
      | some (letter, v) => (amount? v).map fun a => (letter = 'c', a)
    match amount? with
    | none =>
      let (letter, v) := asked.getD ('n', [])
      g.complain 1 (tool.toList ++ ": invalid number of ".toList ++
        (if letter = 'c' then "bytes" else "lines").toList ++ ": ".toList ++ quotedName v)
    | some (inBytes, a) =>
      let cut : Octets → Octets := fun o => if inBytes then a.of o else (a.of (keptLines o)).flatten
      let named : Bool := o.has 'v' || (1 < operands.length && !o.has 'q')
      let title : Octets → Octets := fun name =>
        let name := if Given.isInput name then "standard input".toList else name
        "==> ".toList ++ name ++ " <==\n".toList
      let r := operands.foldl (fun (r, first) name =>
        let g := match inBytes, a with
          | true, .first n => if name = "/dev/zero".toList then Except.ok (List.replicate n '\x00')
            else g.read name
          | _, _ => g.read name
        match g with
        | .ok o =>
          let head := if named then (if first then [] else ['\n']) ++ title name else []
          (Result.say r (head ++ cut o), false)
        | .error e => (r.fail 1 (cannotRead tool name e), first)) (g.finish 0, true)
      if operands.isEmpty ∨ operands.any Given.isInput then
        let part := cut g.input
        let r := if operands.isEmpty then g.say part else r.1
        match a with
        | .first _ => if g.fromFile then { r with taken := part.length } else r.takeAll g
        | _ => r.takeAll g
      else r.1

/-- Writes the beginnings of its operands. -/
def headOf : Tool := partOf "head" headAmount? (.first 10) ['-']

/-- Writes the ends of its operands. -/
def tailOf : Tool := partOf "tail" tailAmount? (.last 10) ['-', '+']

/-! ### Other orders -/

/-- Writes lines in the opposite order. -/
def tac : Tool := fun g =>
  withOptions "tac" 1 ⟨"", []⟩ g fun _ operands =>
    eachOperand (fun name e => match e with
      | .isDirectory => about "tac" name "read error: Is a directory".toList
      | e => "tac: failed to open ".toList ++ quotedName name ++ " for reading: ".toList ++
        e.message) 1 g operands fun _ o => (keptLines o).reverse.flatten

/-- Writes lines with their characters in the opposite order. -/
def rev : Tool := fun g =>
  eachOperand (fun name e => "rev: cannot open ".toList ++ name ++ ": ".toList ++ e.message) 1 g
    g.arguments fun _ o => ((keptLines o).map fun l =>
      if l.getLast? = some '\n' then l.dropLast.reverse ++ ['\n'] else l.reverse).flatten

/-- Writes lines that are not empty with their numbers. -/
def nl : Tool := fun g =>
  withOptions "nl" 1 ⟨"b:s:w:", []⟩ g fun o operands =>
    let r := contents (plainWording "nl") 1 g operands
    let all := o.value? 'b' = some ['a']
    let width := ((o.value? 'w').bind Octets.toNat?).getD 6
    let separator := (o.value? 's').getD ['\t']
    let step : Nat × List Octets → Octets → Nat × List Octets := fun (n, done) l =>
      if l.isEmpty && !all then (n, (List.replicate (width + separator.length) ' ') :: done)
      else (n + 1, (padLeft width (Octets.ofNat n) ++ separator ++ l) :: done)
    r.withOutput (Octets.unlines ((Octets.lines r.output).foldl step (1, [])).2.reverse)

/-- A line in pieces of at most so many characters. -/
def folded (width : Nat) : Nat → Octets → List Octets
  | 0, l => [l]
  | fuel + 1, l =>
    if l.length ≤ width then [l] else l.take width :: folded width fuel (l.drop width)

/-- Breaks long lines. -/
def foldLines : Tool := fun g =>
  withOptions "fold" 1 ⟨"bsw:", []⟩ g fun o operands =>
    let width := max 1 (((o.value? 'w').bind Octets.toNat?).getD 80)
    eachOperand (plainWording "fold") 1 g operands fun _ o =>
      ((keptLines o).map fun l =>
        let body := if l.getLast? = some '\n' then l.dropLast else l
        Octets.join ['\n'] (folded width body.length body) ++ l.drop body.length).flatten

/-- Writes what it reads, also into files. -/
def tee : Tool := fun g =>
  withOptions "tee" 1 ⟨"aip", [("append", 'a')]⟩ g fun o operands =>
    let r := operands.foldl (fun (r : Result) name =>
      match r.disk.resolveFrom? g.directory (Octets.toString name) with
      | none => r.fail 1 (about "tee" name FileFault.missing.message)
      | some p =>
        let before := if o.has 'a' then (r.disk.content? p).getD [] else []
        match r.disk.write? p (before ++ Octets.toBytes g.input) with
        | some disk => { r with disk }
        | none => r.fail 1 (about "tee" name
            (if r.disk.isDirectory p then FileFault.isDirectory else .missing).message))
      (g.finish 0)
    (r.say g.input).takeAll g

/-! ### Counts -/

/-- The words of a text. -/
def wordCount (o : Octets) : Nat :=
  let isSpace : Char → Bool := fun c => c = ' ' || ('\t' ≤ c && c ≤ '\x0d')
  (o.foldl (fun (n, inside) c =>
    if isSpace c then (n, false) else (if inside then n else n + 1, true)) (0, false)).1

/-- The counts of a text that are asked for. -/
def countsOf (o : Options) (text : Octets) : List Nat :=
  let all := !o.hasAny "lwcmL"
  (if all || o.has 'l' then [(text.filter (· = '\n')).length] else []) ++
    (if all || o.has 'w' then [wordCount text] else []) ++
    (if o.has 'm' then [text.length] else []) ++
    (if all || o.has 'c' then [text.length] else []) ++
    (if o.has 'L' then [(Octets.lines text).foldl (fun n l => max n l.length) 0] else [])

/-- Counts lines, words and bytes. -/
def countOf : Tool := fun g =>
  withOptions "wc" 1
    ⟨"clwmL", [("bytes", 'c'), ("lines", 'l'), ("words", 'w'), ("chars", 'm'),
      ("max-line-length", 'L')]⟩ g fun o operands =>
    let kinds := (countsOf o []).length
    let sizes := operands.map fun name =>
      if Given.isInput name then (if g.fromFile then some g.input.length else none)
      else match g.node? name with
        | some (.file content) => some content.length
        | some _ => none
        | none => some 0
    let total : Nat := sizes.foldl (fun n s => n + s.getD 0) 0
    let input : Option Nat := if g.fromFile then some g.input.length else none
    let fitting : Nat → Bool → Nat := fun total special =>
      max (Octets.ofNat total).length (if special then 7 else 1)
    let width :=
      if operands.isEmpty then (if kinds = 1 then 1 else fitting (input.getD 0) input.isNone)
      else if operands.length = 1 ∧ kinds = 1 then 1
      else fitting total (sizes.contains none)
    let line : List Nat → Octets → Octets := fun counts name =>
      let texts := counts.map fun n => padLeft width (Octets.ofNat n)
      Octets.join [' '] (if name.isEmpty then texts else texts ++ [name]) ++ ['\n']
    if operands.isEmpty then (g.say (line (countsOf o g.input) [])).takeAll g
    else
      let none := List.replicate kinds 0
      let (r, sums) := operands.foldl (fun (r, sums) name =>
        match g.read name with
        | .ok text =>
          let counts := countsOf o text
          (Result.say r (line counts name), List.zipWith Nat.add sums counts)
        | .error .isDirectory =>
          ((r.fail 1 (about "wc" name FileFault.isDirectory.message)).say (line none name), sums)
        | .error e => (r.fail 1 (about "wc" name e.message), sums)) (g.finish 0, none)
      let r := if 1 < operands.length then r.say (line sums "total".toList) else r
      if operands.any Given.isInput then r.takeAll g else r

end Shell
end ImagePolicy
