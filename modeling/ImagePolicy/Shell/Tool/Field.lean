/-
# Parts of lines

`cut` writes chosen bytes or fields of lines; `paste` joins lines of several files, or all lines of
each.

Key definitions: `Shell.Range`, `Shell.cutLines`, `Shell.pasteLines`.
-/
import ImagePolicy.Shell.Tool.Basic

namespace ImagePolicy
namespace Shell

/-! ### Cutting -/

/-- The numbers from one to another, or all from one on. -/
structure Range where
  first : Nat
  last : Option Nat
  deriving DecidableEq, Repr

/-- Whether a number is in one of some ranges. -/
def inRanges (rs : List Range) (n : Nat) : Bool :=
  rs.any fun r => r.first ≤ n && (match r.last with | some last => decide (n ≤ last) | none => true)

/-- The range that a text names, or why it names none. -/
def readRange (kind : String) (o : Octets) : Except Octets Range :=
  let number : Octets → Except Octets Nat := fun digits =>
    match Octets.toNat? digits with
    | some 0 =>
      .error ((if kind = "field" then "fields" else "byte/character positions").toList ++
        " are numbered from 1".toList)
    | some n => .ok n
    | none =>
      .error ((if kind = "field" then "invalid field value ".toList
        else "invalid byte/character position ".toList) ++ quotedName digits)
  match Text.splitFirst '-' o with
  | none => (number o).map fun n => ⟨n, some n⟩
  | some ([], []) => .error "invalid range with no endpoint: -".toList
  | some (first, last) => do
    let first ← if first.isEmpty then .ok 1 else number first
    if last.isEmpty then .ok ⟨first, none⟩
    else
      let last ← number last
      if last < first then .error "invalid decreasing range".toList else .ok ⟨first, some last⟩

/-- The ranges that a list names. -/
def readRanges (kind : String) (o : Octets) : Except Octets (List Range) :=
  (Text.split ',' (o.map fun c => if c = ' ' ∨ c = '\t' then ',' else c)).mapM (readRange kind)

/-- The items of a list whose numbers are chosen. -/
def chosen {α : Type} (rs : List Range) (inverted : Bool) (items : List α) : List (Nat × α) :=
  (items.zipIdx 1).filterMap fun (a, n) => if inRanges rs n != inverted then some (n, a) else none

/-- Chosen bytes with a text between those that do not stand side by side. -/
def joinRuns (separator : Octets) : List (Nat × Char) → Octets
  | [] => []
  | [(_, c)] => [c]
  | (m, c) :: (n, d) :: rest =>
    c :: (if n = m + 1 then [] else separator) ++ joinRuns separator ((n, d) :: rest)

/-- Writes chosen parts of each line. -/
def cutLines : Tool := fun g =>
  withOptions "cut" 1
    ⟨"b:c:d:f:nszO:C", [("bytes", 'b'), ("characters", 'c'), ("delimiter", 'd'), ("fields", 'f'),
      ("only-delimited", 's'), ("output-delimiter", 'O'), ("complement", 'C')]⟩ g
    fun o operands =>
    let wrong : Octets → Result := fun what => g.complain 1 (withHint "cut" what)
    let lists := o.filter fun (c, _) => c = 'b' ∨ c = 'c' ∨ c = 'f'
    match lists with
    | [] => wrong "you must specify a list of bytes, characters, or fields".toList
    | _ :: _ :: _ => wrong "only one type of list may be specified".toList
    | [(kind, list)] =>
      let delimiter := (o.value? 'd').getD ['\t']
      if 1 < delimiter.length then wrong "the delimiter must be a single character".toList
      else if kind ≠ 'f' ∧ o.has 'd' then
        wrong "an input delimiter may be specified only when operating on fields".toList
      else if kind ≠ 'f' ∧ o.has 's' then
        wrong ("suppressing non-delimited lines makes sense\n\tonly when operating on" ++
          " fields").toList
      else match readRanges (if kind = 'f' then "field" else "byte") list with
        | .error e => wrong e
        | .ok rs =>
          let separator := delimiter.headD '\x00'
          let out := o.value? 'O'
          let part : Octets → List Octets := fun l =>
            if kind ≠ 'f' then
              let bytes := chosen rs (o.has 'C') l
              [match out with | some s => joinRuns s bytes | none => bytes.map Prod.snd]
            else if l.contains separator then
              [Octets.join (out.getD [separator])
                ((chosen rs (o.has 'C') (Text.split separator l)).map Prod.snd)]
            else if o.has 's' then [] else [l]
          eachOperand (plainWording "cut") 1 g operands fun _ o =>
            Octets.unlines ((Octets.lines o).flatMap part)

/-! ### Pasting -/

/-- Texts with one of the separators between each two, in turn. -/
def joinInTurn (separators : List Octets) (os : List Octets) : Octets :=
  match os with
  | [] => []
  | first :: rest =>
    first ++ (rest.zipIdx.flatMap fun (o, i) =>
      ((separators[i % max 1 separators.length]?).getD []) ++ o)

/-- The separators that a text names; `\0` is none. -/
def readSeparators : Octets → List Octets
  | [] => []
  | '\\' :: '0' :: o => [] :: readSeparators o
  | '\\' :: c :: o =>
    [match controlEscape? c with | some e => e | none => c] :: readSeparators o
  | c :: o => [c] :: readSeparators o

/-- The lines of several contents side by side. -/
def sideBySide (separators : List Octets) (contents : List (List Octets)) : List Octets :=
  let longest := contents.foldl (fun n ls => max n ls.length) 0
  (List.range longest).map fun i => joinInTurn separators (contents.map fun ls => ls[i]?.getD [])

/-- Writes the lines of its operands side by side, or all lines of each as one. -/
def pasteLines : Tool := fun g =>
  withOptions "paste" 1 ⟨"d:sz", [("delimiters", 'd'), ("serial", 's')]⟩ g fun o operands =>
    let operands := if operands.isEmpty then [['-']] else operands
    let separators := readSeparators ((o.value? 'd').getD ['\t'])
    let inputs := (operands.filter Given.isInput).length
    let lines := Octets.lines g.input
    let share : Nat → List Octets := fun k =>
      lines.zipIdx.filterMap fun (l, i) => if i % inputs = k then some l else none
    let read : List (List Octets) × Nat × Result → Octets → List (List Octets) × Nat × Result :=
      fun (done, k, r) name =>
        if Given.isInput name then
          (done ++ [if o.has 's' then (if k = 0 then lines else []) else share k], k + 1, r)
        else match g.read name with
          | .ok text => (done ++ [Octets.lines text], k, r)
          | .error e => (done, k, r.fail 1 (about "paste" name e.message))
    let (contents, k, r) := operands.foldl read ([], 0, g.finish 0)
    let r := if 0 < k then r.takeAll g else r
    if r.status ≠ 0 then r
    else r.say <| Octets.unlines <|
      if o.has 's' then contents.map (joinInTurn separators) else sideBySide separators contents

end Shell
end ImagePolicy
