/-
# Order of lines

`sort`, `uniq` and `comm`. Lines are compared by their keys in turn, each a part of the line and a
way to compare; lines whose keys are equal are compared as a whole, unless the order is stable or
equal lines are to be dropped.

Key definitions: `Shell.SortKey`, `Shell.compareLines`, `Shell.sortLines`, `Shell.uniqueLines`,
`Shell.commonLines`.
-/
import ImagePolicy.Shell.Tool.Basic
import ImagePolicy.Shell.Format

namespace ImagePolicy
namespace Shell

/-! ### Keys -/

/-- An end of a key: a field, a character in it, and whether blanks before it are passed. -/
structure KeyEnd where
  field : Nat
  char : Nat
  passBlanks : Bool

/-- A key: where it starts, where it ends unless at the end of the line, and how it is compared. -/
structure SortKey where
  start : KeyEnd
  stop : Option KeyEnd
  letters : List Char

/-- The letters that say how a key is compared. -/
def orderLetters : List Char := ['b', 'd', 'f', 'g', 'h', 'i', 'M', 'n', 'R', 'r', 'V']

/-- An end of a key as it is written, and the rest. -/
def readKeyEnd (o : Octets) : Option (Nat × Option Nat × List Char × Octets) :=
  let digits := o.takeWhile Char.isDigit
  match Octets.toNat? digits with
  | none => none
  | some field =>
    let (char, o) : Option Nat × Octets := match o.drop digits.length with
      | '.' :: o => ((Octets.toNat? (o.takeWhile Char.isDigit)), o.dropWhile Char.isDigit)
      | o => (none, o)
    let letters := o.takeWhile orderLetters.contains
    some (field, char, letters, o.drop letters.length)

/-- A key as it is written. -/
def readKey (o : Octets) : Option SortKey :=
  match readKeyEnd o with
  | none => none
  | some (field, char, letters, rest) =>
    if field = 0 then none
    else
      let start : KeyEnd := ⟨field, char.getD 1, letters.contains 'b'⟩
      match rest with
      | [] => some ⟨start, none, letters⟩
      | ',' :: rest =>
        match readKeyEnd rest with
        | some (field, char, more, []) =>
          some ⟨start, some ⟨field, char.getD 0, more.contains 'b'⟩, letters ++ more⟩
        | _ => none
      | _ => none

/-- The fields of a line with where each begins and ends: between separators, or each with the
blanks before it. -/
def fieldBounds (separator : Option Char) (line : Octets) : List (Nat × Nat) :=
  match separator with
  | some s =>
    let parts := Text.split s line
    (parts.foldl (fun (at_, done) p => (at_ + p.length + 1, (at_, at_ + p.length) :: done))
      (0, [])).2.reverse
  | none =>
    let isBlank : Char → Bool := fun c => c = ' ' || c = '\t'
    let step : Nat × List Nat × Bool → Char → Nat × List Nat × Bool :=
      fun (n, starts, inBlanks) c =>
        if isBlank c then (n + 1, if inBlanks then starts else n :: starts, true)
        else (n + 1, starts, false)
    let starts := (line.foldl step (0, [0], true)).2.1.reverse
    starts.zip (starts.drop 1 ++ [line.length])

/-- The part of a line that is a key. -/
def SortKey.part (k : SortKey) (separator : Option Char) (line : Octets) : Octets :=
  let bounds := fieldBounds separator line
  let blanksAt : Nat → Nat := fun n =>
    ((line.drop n).takeWhile fun c => c = ' ' || c = '\t').length
  let start := match bounds[k.start.field - 1]? with
    | none => line.length
    | some (b, _) =>
      let b := if k.start.passBlanks then b + blanksAt b else b
      min line.length (b + (k.start.char - 1))
  let stop := match k.stop with
    | none => line.length
    | some e =>
      match bounds[e.field - 1]? with
      | none => line.length
      | some (b, last) =>
        if e.char = 0 then last
        else min line.length ((if e.passBlanks then b + blanksAt b else b) + e.char)
  (line.take stop).drop start

/-! ### Comparing -/

/-- The number in front of a text as a sign and a fraction; nothing counts as zero. -/
def plainNumber (o : Octets) : Int × Nat :=
  let o := o.dropWhile fun c => c = ' ' || c = '\t'
  let (negative, o) := match o with
    | '-' :: o => (true, o)
    | o => (false, o)
  let whole := o.takeWhile Char.isDigit
  let places := match o.drop whole.length with
    | '.' :: o => o.takeWhile Char.isDigit
    | _ => []
  let n : Int := Text.ofDigits ((whole ++ places).filterMap Text.digit?)
  (if negative then -n else n, Nat.pow 10 places.length)

/-- The order of fractions. -/
def compareFractions (a b : Int × Nat) : Ordering :=
  compare (a.1 * b.2) (b.1 * a.2)

/-- The rank of the letter of a size. -/
def sizeRank (o : Octets) : Nat :=
  let o := (o.dropWhile fun c => c = ' ' || c = '\t' || c = '-').dropWhile fun c =>
    c.isDigit || c = '.'
  match o.head? with
  | some 'k' => 1
  | some c => match ['K', 'M', 'G', 'T', 'P', 'E', 'Z', 'Y'].idxOf? c with
    | some i => i + 1
    | none => 0
  | none => 0

/-- The order of texts by their bytes. -/
def compareBytes (a b : Octets) : Ordering :=
  if a = b then .eq else if a < b then .lt else .gt

/-- The order of version numbers: digits by their value, all else by its bytes. -/
def compareVersions : Nat → Octets → Octets → Ordering
  | 0, a, b => compareBytes a b
  | fuel + 1, a, b =>
    let front : Octets → Octets := fun o => o.takeWhile fun c => !c.isDigit
    let digits : Octets → Octets := fun o => o.takeWhile Char.isDigit
    let (x, y) := (front a, front b)
    match compareBytes x y with
    | .eq =>
      let (a, b) := (a.drop x.length, b.drop y.length)
      if a.isEmpty ∧ b.isEmpty then .eq
      else
        let (m, n) := (digits a, digits b)
        match compare ((Octets.toNat? m).getD 0) ((Octets.toNat? n).getD 0) with
        | .eq => compareVersions fuel (a.drop m.length) (b.drop n.length)
        | order => order
    | order => order

/-- The order of two keys. -/
def compareKeys (letters : List Char) (a b : Octets) : Ordering :=
  let trimmed : Octets → Octets := fun o => o.dropWhile fun c => c = ' ' || c = '\t'
  let (a, b) := if letters.contains 'b' then (trimmed a, trimmed b) else (a, b)
  let order :=
    if letters.contains 'n' then compareFractions (plainNumber a) (plainNumber b)
    else if letters.contains 'h' then
      (compare (sizeRank a) (sizeRank b)).then (compareFractions (plainNumber a) (plainNumber b))
    else if letters.contains 'g' then
      let value : Octets → Int × Nat := fun o =>
        let (f, _) := readFraction o
        (if f.negative then -(f.num : Int) else f.num, f.den)
      compareFractions (value a) (value b)
    else if letters.contains 'V' then compareVersions (a.length + b.length + 1) a b
    else
      let kept : Octets → Octets := fun o =>
        if letters.contains 'd' then o.filter fun c => c.isAlphanum || c = ' ' || c = '\t'
        else if letters.contains 'i' then o.filter fun c => ' ' ≤ c && c ≤ '~'
        else o
      let folded : Octets → Octets := fun o =>
        if letters.contains 'f' then (kept o).map Char.toUpper else kept o
      compareBytes (folded a) (folded b)
  if letters.contains 'r' then order.swap else order

/-- What the order of lines is made of. -/
structure LineOrder where
  separator : Option Char
  keys : List SortKey
  letters : List Char
  wholeLast : Bool

/-- The order of lines by their keys alone. -/
def LineOrder.byKeys (order : LineOrder) (a b : Octets) : Ordering :=
  if order.keys.isEmpty then compareKeys order.letters a b
  else order.keys.foldl (fun found k =>
    match found with
    | .eq =>
      let letters := if k.letters.isEmpty then order.letters else k.letters
      compareKeys letters (k.part order.separator a) (k.part order.separator b)
    | found => found) .eq

/-- The order of lines. -/
def compareLines (order : LineOrder) (a b : Octets) : Ordering :=
  match order.byKeys a b with
  | .eq =>
    if order.wholeLast then
      (if order.letters.contains 'r' then (compareBytes a b).swap else compareBytes a b)
    else .eq
  | found => found

/-- Lines without those that are equal to the one before. -/
def withoutRepeats (same : Octets → Octets → Bool) : List Octets → List Octets
  | [] => []
  | [l] => [l]
  | a :: b :: ls =>
    match withoutRepeats same (b :: ls) with
    | [] => [a]
    | c :: kept => if same a b then a :: kept else a :: c :: kept

/-! ### Sorting -/

/-- The first line that is out of order, and its number. -/
def disorder? (bad : Octets → Octets → Bool) : Nat → List Octets → Option (Nat × Octets)
  | n, a :: b :: ls => if bad a b then some (n + 1, b) else disorder? bad (n + 1) (b :: ls)
  | _, _ => none

/-- Writes lines in order. -/
def sortLines : Tool := fun g =>
  withOptions "sort" 2
    ⟨"bcCdfghiMmnRrsuVzk:o:t:S:T:",
      [("reverse", 'r'), ("numeric-sort", 'n'), ("unique", 'u'), ("ignore-case", 'f'),
        ("key", 'k'), ("field-separator", 't'), ("output", 'o'), ("stable", 's'),
        ("version-sort", 'V'), ("human-numeric-sort", 'h'), ("check", 'c'),
        ("ignore-leading-blanks", 'b'), ("general-numeric-sort", 'g')]⟩ g fun o operands =>
    let written := o.values 'k'
    match written.find? fun k => (readKey k).isNone with
    | some k =>
      if k.head? = some '0' then
        g.complain 2 ("sort: field number is zero: invalid field specification ".toList ++
          quotedName k)
      else g.complain 2 ("sort: invalid number at field start: invalid count at start of ".toList ++
        quotedName k)
    | none =>
      let tab : Option Octets := o.value? 't'
      match tab with
      | some [] => g.complain 2 "sort: empty tab".toList
      | some (_ :: _ :: _) =>
        if tab = some ['\\', '0'] then g.finish 0
        else g.complain 2 ("sort: multi-character tab ".toList ++ quotedName (tab.getD []))
      | tab =>
        let order : LineOrder :=
          ⟨tab.bind List.head?, written.filterMap readKey,
            (o.map Prod.fst).filter orderLetters.contains, !o.hasAny "su"⟩
        let r := contents (fun name e =>
          match e with
          | .isDirectory => about "sort" ("read failed: ".toList ++ name) e.message
          | e => about "sort" ("cannot read: ".toList ++ name) e.message) 2 g operands
        if r.status ≠ 0 then { r with written := (r.written.filter (·.1 = 2)).take 1 }
        else
          let lines := Octets.lines r.output
          if o.hasAny "cC" then
            let bad : Octets → Octets → Bool := fun a b =>
              match compareLines order a b with
              | .gt => true
              | .eq => o.has 'u'
              | .lt => false
            match disorder? bad 1 lines with
            | none => r.withOutput []
            | some (n, l) =>
              let r := { r.withOutput [] with status := 1 }
              if o.has 'C' then r
              else r.note ("sort: ".toList ++ operands.headD ['-'] ++ ':' :: Octets.ofNat n ++
                ": disorder: ".toList ++ l)
          else
            let sorted := lines.mergeSort fun a b => compareLines order a b != .gt
            let same : Octets → Octets → Bool := fun a b => order.byKeys a b = .eq
            let text := Octets.unlines (if o.has 'u' then withoutRepeats same sorted else sorted)
            match o.value? 'o' with
            | none => r.withOutput text
            | some name =>
              match (g.resolve? name).bind fun p => r.disk.write? p (Octets.toBytes text) with
              | some disk => { r.withOutput [] with disk }
              | none => { r.withOutput [] with status := 2 }.note
                  ("sort: open failed: ".toList ++ name ++ ": ".toList ++ FileFault.missing.message)

/-! ### Repeated lines -/

/-- Lines in groups of equal ones that follow one another. -/
def lineGroups (same : Octets → Octets → Bool) : List Octets → List (List Octets)
  | [] => []
  | l :: ls =>
    match lineGroups same ls with
    | (m :: ms) :: groups =>
      if same l m then (l :: m :: ms) :: groups else [l] :: (m :: ms) :: groups
    | groups => [l] :: groups

/-- A line without so many fields and characters at its front, and not longer than a width. -/
def comparedPart (fields chars : Nat) (width : Option Nat) (line : Octets) : Octets :=
  let isBlank : Char → Bool := fun c => c = ' ' || c = '\t'
  let rest := (List.range fields).foldl (fun (l : Octets) _ =>
    (l.dropWhile isBlank).dropWhile fun c => !isBlank c) line
  let rest := rest.drop chars
  match width with
  | some n => rest.take n
  | none => rest

/-- Writes one line of each run of equal ones, or those that are repeated or not. -/
def uniqueLines : Tool := fun g =>
  withOptions "uniq" 1
    ⟨"cdDuizf:s:w:", [("count", 'c'), ("repeated", 'd'), ("unique", 'u'), ("ignore-case", 'i'),
      ("skip-fields", 'f'), ("skip-chars", 's'), ("check-chars", 'w'), ("all-repeated", 'D')]⟩ g
    fun o operands =>
    let number : Char → Option Nat := fun c => (o.value? c).bind Octets.toNat?
    let part : Octets → Octets := fun l =>
      let p := comparedPart ((number 'f').getD 0) ((number 's').getD 0) (number 'w') l
      if o.has 'i' then p.map Char.toLower else p
    let r := contents (fun name e => about "uniq" name e.message) 1 g (operands.take 1)
    if r.status ≠ 0 then r
    else
      let groups := lineGroups (fun a b => part a = part b) (Octets.lines r.output)
      let chosen := groups.filter fun ls =>
        (!o.hasAny "dD" || 1 < ls.length) && (!o.has 'u' || ls.length = 1)
      let count : Nat → Octets := fun n =>
        let digits := Octets.ofNat n
        List.replicate (7 - digits.length) ' ' ++ digits ++ [' ']
      let text := Octets.unlines <|
        if o.has 'D' then chosen.flatten
        else chosen.map fun ls => (if o.has 'c' then count ls.length else []) ++ ls.headD []
      match operands.drop 1 with
      | [] => r.withOutput text
      | name :: _ =>
        match (g.resolve? name).bind fun p => r.disk.write? p (Octets.toBytes text) with
        | some disk => { r.withOutput [] with disk }
        | none => { r.withOutput [] with status := 1 }.note
            (about "uniq" name FileFault.missing.message)

/-! ### Common lines -/

/-- The lines of two ordered lists in order, each with whether the first and the second list have
it. -/
def mergedLines : Nat → List Octets → List Octets → List (Octets × Bool × Bool)
  | 0, _, _ => []
  | _, [], bs => bs.map (·, false, true)
  | _, as, [] => as.map (·, true, false)
  | fuel + 1, a :: as, b :: bs =>
    match compareBytes a b with
    | .lt => (a, true, false) :: mergedLines fuel as (b :: bs)
    | .gt => (b, false, true) :: mergedLines fuel (a :: as) bs
    | .eq => (a, true, true) :: mergedLines fuel as bs

/-- Writes the lines of two ordered files in three columns: those of the first alone, of the second
alone, and of both. -/
def commonLines : Tool := fun g =>
  withOptions "comm" 1 ⟨"123z", [("nocheck-order", 'z')]⟩ g fun o operands =>
    match operands with
    | [first, second] =>
      match g.read first, g.read second with
      | .error e, _ => g.complain 1 (about "comm" first e.message)
      | _, .error e => g.complain 1 (about "comm" second e.message)
      | .ok a, .ok b =>
        let (as, bs) := (Octets.lines a, Octets.lines b)
        let tab : Char → Octets := fun c => if o.has c then [] else ['\t']
        let text := (mergedLines (as.length + bs.length + 1) as bs).flatMap fun (l, inA, inB) =>
          let (column, before) : Char × Octets := match inA, inB with
            | true, true => ('3', tab '1' ++ tab '2')
            | true, false => ('1', [])
            | _, _ => ('2', tab '1')
          if o.has column then [] else before ++ l ++ ['\n']
        let r := g.say text
        if operands.any Given.isInput then r.takeAll g else r
    | [] => g.complain 1 (withHint "comm" "missing operand".toList)
    | [a] => g.complain 1 (withHint "comm" ("missing operand after ".toList ++ quotedName a))
    | _ :: _ :: c :: _ => g.complain 1 (withHint "comm" ("extra operand ".toList ++ quotedName c))

end Shell
end ImagePolicy
