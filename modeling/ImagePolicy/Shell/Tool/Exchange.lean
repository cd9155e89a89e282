/-
# Exchanging characters

`tr`: characters of one set are exchanged for their likes in another, deleted, or squeezed where
they repeat. A set names characters by themselves, as ranges, as classes, by escapes, and with a
number of repetitions.

Key definitions: `Shell.setChars`, `Shell.exchange`.
-/
import ImagePolicy.Shell.Tool.Basic
import ImagePolicy.Shell.Pattern

namespace ImagePolicy
namespace Shell

/-- The characters from one to another. -/
def charsBetween (low high : Char) : List Char :=
  (List.range (high.toNat + 1 - low.toNat)).map fun i => Char.ofNat (low.toNat + i)

/-- A single character in front of a set to exchange. -/
def setChar : Octets → Option (Char × Octets)
  | [] => none
  | '\\' :: c :: o =>
    match octalDigit? c, controlEscape? c with
    | some _, _ => let (n, rest) := octal 0 3 (c :: o); some (byteChar n, rest)
    | none, some e => some (e, o)
    | none, none => some (c, o)
  | c :: o => some (c, o)

/-- A character that is repeated in a set: the character, how often, and what follows. No number
means as often as it takes. -/
def repeatedChar? (o : Octets) : Option (Char × Nat × Octets) :=
  match setChar o with
  | some (c, '*' :: rest) =>
    let digits := rest.takeWhile Char.isDigit
    match rest.drop digits.length with
    | ']' :: rest => some (c, (Octets.toNat? digits).getD 0, rest)
    | _ => none
  | _ => none

/-- The characters of a set to exchange. -/
def setChars (wanted : Nat) : Nat → Octets → List Char
  | 0, _ => []
  | fuel + 1, '[' :: ':' :: o =>
    match CharSet.readNamed o with
    | some (ranges, rest) =>
      (ranges.flatMap fun (low, high) => charsBetween low high) ++ setChars wanted fuel rest
    | none => '[' :: setChars wanted fuel (':' :: o)
  | fuel + 1, '[' :: '=' :: c :: '=' :: ']' :: o => c :: setChars wanted fuel o
  | fuel + 1, '[' :: o =>
    match repeatedChar? o with
    | some (c, n, rest) =>
      let others := setChars wanted fuel rest
      List.replicate (if n = 0 then wanted - others.length else n) c ++ others
    | none =>
      match o with
      | '-' :: rest =>
        match setChar rest with
        | some (high, rest) => charsBetween '[' high ++ setChars wanted fuel rest
        | none => ['[', '-']
      | o => '[' :: setChars wanted fuel o
  | fuel + 1, o =>
    match setChar o with
    | none => []
    | some (low, '-' :: rest) =>
      match setChar rest with
      | some (high, rest) => charsBetween low high ++ setChars wanted fuel rest
      | none => [low, '-']
    | some (c, rest) => c :: setChars wanted fuel rest

/-- A text with only one of each run of a character that has a property. -/
def squeeze (mem : Char → Bool) : Octets → Octets
  | [] => []
  | [c] => [c]
  | c :: d :: o => if c = d ∧ mem c then squeeze mem (d :: o) else c :: squeeze mem (d :: o)

/-- What a character is exchanged for: its like in the other set, of which the last stands for all
that follow. -/
def exchangeChar (inverted : Bool) (source image : List Char) (c : Char) : Char :=
  if inverted then (if source.contains c then c else image.getLast?.getD c)
  else match source.idxOf? c with
    | some i => (image[i]?).getD (image.getLast?.getD c)
    | none => c

/-- Exchanges, deletes or squeezes characters of what it reads. -/
def exchange : Tool := fun g =>
  withOptions "tr" 1
    ⟨"cCdst", [("complement", 'c'), ("delete", 'd'), ("squeeze-repeats", 's'),
      ("truncate-set1", 't')]⟩ g fun o operands =>
    let inverted := o.hasAny "cC"
    let deletes := o.has 'd'
    let squeezes := o.has 's'
    let done : Octets → Result := fun o => (g.say o).takeAll g
    let wrong : String → Result := fun what => g.complain 1 (withHint "tr" what.toList)
    let chars : Nat → Octets → List Char := fun wanted o => setChars wanted (o.length + 1) o
    match operands with
    | [] => wrong "missing operand"
    | [first] =>
      let set := chars 0 first
      let mem : Char → Bool := fun c => set.contains c != inverted
      if deletes ∧ squeezes then
        wrong ("missing operand after '" ++ String.ofList first ++
          "'\nTwo strings must be given when both deleting and squeezing repeats.")
      else if deletes then done (g.input.filter fun c => !mem c)
      else if squeezes then done (squeeze mem g.input)
      else
        wrong ("missing operand after '" ++ String.ofList first ++
          "'\nTwo strings must be given when translating.")
    | [first, second] =>
      let set := chars 0 first
      let image := chars set.length second
      let mem : Char → Bool := fun c => set.contains c != inverted
      if deletes ∧ !squeezes then
        wrong ("extra operand '" ++ String.ofList second ++
          "'\nOnly one string may be given when deleting without squeezing repeats.")
      else if image.isEmpty ∧ !deletes then
        g.complain 1 "tr: when not truncating set1, string2 must be non-empty".toList
      else
        let text :=
          if deletes then g.input.filter fun c => !mem c
          else
            let source := if o.has 't' then set.take image.length else set
            g.input.map (exchangeChar inverted source image)
        done (if squeezes then squeeze image.contains text else text)
    | _ :: _ :: third :: _ => wrong ("extra operand '" ++ String.ofList third ++ "'")

end Shell
end ImagePolicy
