/-
# Conditions

The language of `test`: conditions on texts, integers and files, joined by `-a` and `-o`, negated
and grouped. A word counts as an operator only where one can stand; with three words the middle one
is tried first.

Key definitions: `Shell.TestOperator`, `Shell.FileFacts`, `Shell.Condition.holds`.
-/
import ImagePolicy.Shell.Format
import ImagePolicy.Scratch.Disk

namespace ImagePolicy
namespace Shell

/-- What an operator of a condition is for. -/
inductive TestOperator where
  | file (letter : Char)
  | isEmpty
  | isNotEmpty
  | terminal
  | texts (holds : Octets → Octets → Bool)
  | integers (holds : Int → Int → Bool)
  | files (holds : Option Path → Option Path → Bool)
  | negation
  | conjunction
  | alternative
  | opening
  | closing

/-- What conditions on files need: what is found at a path, and whether it can be run. -/
structure FileFacts where
  path? : Octets → Option Path
  node? : Octets → Option Node
  isRunnable : Octets → Bool

namespace Condition

/-- The operator of a word. -/
def operator? (word : Octets) : Option TestOperator :=
  match String.ofList word with
  | "-z" => some .isEmpty
  | "-n" => some .isNotEmpty
  | "-t" => some .terminal
  | "=" => some (.texts fun a b => a = b)
  | "!=" => some (.texts fun a b => a ≠ b)
  | "<" => some (.texts fun a b => decide (a < b))
  | ">" => some (.texts fun a b => decide (b < a))
  | "-eq" => some (.integers fun m n => m = n)
  | "-ne" => some (.integers fun m n => m ≠ n)
  | "-lt" => some (.integers fun m n => m < n)
  | "-le" => some (.integers fun m n => m ≤ n)
  | "-gt" => some (.integers fun m n => n < m)
  | "-ge" => some (.integers fun m n => n ≤ m)
  | "-nt" => some (.files fun _ _ => false)
  | "-ot" => some (.files fun _ _ => false)
  | "-ef" => some (.files fun a b => a.isSome && a = b)
  | "!" => some .negation
  | "-a" => some .conjunction
  | "-o" => some .alternative
  | "(" => some .opening
  | ")" => some .closing
  | _ =>
    match word with
    | ['-', c] => if "rwxefdcbpugkshLOGS".toList.contains c then some (.file c) else none
    | _ => none

/-- Whether an operator has one operand. -/
def isUnary : TestOperator → Bool
  | .file _ => true
  | .isEmpty => true
  | .isNotEmpty => true
  | .terminal => true
  | _ => false

/-- Whether an operator has two operands. -/
def isBinary : TestOperator → Bool
  | .texts _ => true
  | .integers _ => true
  | .files _ => true
  | _ => false

/-- Whether a word is an operator of two operands. -/
def isBinaryWord (word : Octets) : Bool :=
  (operator? word).any isBinary

/-- What stands in front of words: nothing, an operator, or an operand. -/
inductive Front where
  | nothing
  | operator (o : TestOperator)
  | operand

/-- Whether an operator of one operand in front of such words is an operand itself. -/
def unaryIsOperand : List Octets → Bool
  | [] => true
  | [_] => false
  | w :: _ => isBinaryWord w

/-- What stands in front of words. -/
def front : List Octets → Front
  | [] => .nothing
  | w :: ws =>
    match operator? w with
    | some .opening => if ws.isEmpty then .operand else .operator .opening
    | some o => if isUnary o && unaryIsOperand ws then .operand else .operator o
    | none => .operand

/-- Whether the condition on a file holds. -/
def fileHolds (facts : FileFacts) (letter : Char) (name : Octets) : Bool :=
  let node := facts.node? name
  match letter with
  | 'f' => match node with | some (.file _) => true | _ => false
  | 'd' => match node with | some .directory => true | _ => false
  | 'c' => match node with | some .null => true | _ => false
  | 's' => match node with
    | some (.file content) => !content.isEmpty
    | some .directory => true
    | _ => false
  | 'x' => match node with
    | some .directory => true
    | some _ => facts.isRunnable name
    | none => false
  | c => ['e', 'r', 'w', 'O', 'G'].contains c && node.isSome

/-- The integer in decimal that an operand spells. -/
def decimalInteger (word : Octets) : Except Octets Int :=
  match decimalInteger? word with
  | some n => .ok n
  | none => .error ("Illegal number: ".toList ++ word)

/-- A fault of an operator whose operand is missing. -/
def missingOperand (operator : Octets) : Octets :=
  operator ++ ": argument expected".toList

/-- The truth of what stands in front, and the words from the last one that belongs to it on. -/
abbrev Judgement := Except Octets (Bool × List Octets)

/-- The truth of an operand, or of an operator with its operands. -/
def primary (facts : FileFacts) (group : List Octets → Judgement) (ws : List Octets) :
    Front → Judgement
  | .nothing => .ok (false, ws)
  | .operator .opening =>
    let inside := ws.tail
    match front inside with
    | .operator .closing => .ok (false, inside)
    | _ => do
      let (b, rest) ← group inside
      match front rest.tail with
      | .operator .closing => .ok (b, rest.tail)
      | _ => .error "closing paren expected".toList
  | f =>
    let unary : Option TestOperator := match f with
      | .operator o => if isUnary o then some o else none
      | _ => none
    match unary, ws with
    | some o, operator :: rest =>
      match rest with
      | [] => .error (missingOperand operator)
      | a :: _ =>
        match o with
        | .isEmpty => .ok (a.isEmpty, rest)
        | .isNotEmpty => .ok (!a.isEmpty, rest)
        | .file letter => .ok (fileHolds facts letter a, rest)
        | _ => (decimalInteger a).map fun _ => (false, rest)
    | _, a :: operator :: rest =>
      match operator? operator, rest with
      | some (.texts holds), b :: _ => .ok (holds a b, rest)
      | some (.integers holds), b :: _ => do
        .ok (holds (← decimalInteger a) (← decimalInteger b), rest)
      | some (.files holds), b :: _ =>
        let present : Octets → Option Path := fun name =>
          if (facts.node? name).isSome then facts.path? name else none
        .ok (holds (present a) (present b), rest)
      | some o, [] =>
        if isBinary o then .error (missingOperand operator) else .ok (!a.isEmpty, ws)
      | _, _ => .ok (!a.isEmpty, ws)
    | _, [a] => .ok (!a.isEmpty, ws)
    | _, [] => .ok (false, ws)

/-- The truth of a primary condition with the exclamation marks before it. -/
def negated (facts : FileFacts) (group : List Octets → Judgement) :
    Nat → List Octets → Front → Judgement
  | 0, ws, _ => .ok (false, ws)
  | fuel + 1, ws, .operator .negation =>
    let next := front ws.tail
    let ws := match next with
      | .nothing => ws
      | _ => ws.tail
    (negated facts group fuel ws next).map fun (b, rest) => (!b, rest)
  | _ + 1, ws, f => primary facts group ws f

/-- The truth of conditions joined by `-a`. -/
def conjunction (facts : FileFacts) (group : List Octets → Judgement) :
    Nat → List Octets → Front → Judgement
  | 0, ws, _ => .ok (false, ws)
  | fuel + 1, ws, f => do
    let (b, rest) ← negated facts group (fuel + 1) ws f
    match front rest.tail with
    | .operator .conjunction =>
      let next := rest.drop 2
      let (c, rest) ← conjunction facts group fuel next (front next)
      .ok (b && c, rest)
    | _ => .ok (b, rest)

/-- The truth of conjunctions joined by `-o`. -/
def alternatives (facts : FileFacts) (group : List Octets → Judgement) :
    Nat → List Octets → Front → Judgement
  | 0, ws, _ => .ok (false, ws)
  | fuel + 1, ws, f => do
    let (b, rest) ← conjunction facts group (fuel + 1) ws f
    match front rest.tail with
    | .operator .alternative =>
      let next := rest.drop 2
      let (c, rest) ← alternatives facts group fuel next (front next)
      .ok (b || c, rest)
    | _ => .ok (b, rest)

/-- The truth of words in parentheses, so many levels deep at most. -/
def groupAt (facts : FileFacts) : Nat → List Octets → Judgement
  | 0, ws => .ok (false, ws)
  | n + 1, ws => alternatives facts (groupAt facts n) (ws.length + 1) ws (front ws)

/-- The truth of words from a certain reading of the first one on; nothing may be left over. -/
def wholly (facts : FileFacts) (ws : List Octets) (f : Front) : Except Octets Bool := do
  let (b, rest) ← alternatives facts (groupAt facts ws.length) (ws.length + 1) ws f
  match rest with
  | w :: _ :: _ => .error (if w.isEmpty then "unexpected operator".toList
      else w ++ ": unexpected operator".toList)
  | _ => .ok b

/-- Whether a condition holds. -/
def holds (facts : FileFacts) : Nat → List Octets → Except Octets Bool
  | 0, _ => .ok false
  | _, [] => .ok false
  | fuel + 1, ws =>
    let peeled : Except Octets Bool :=
      match ws with
      | ['('] :: rest =>
        if rest.getLast? = some [')'] then holds facts fuel rest.dropLast
        else wholly facts ws (front ws)
      | ['!'] :: rest => (holds facts fuel rest).map not
      | ws => wholly facts ws (front ws)
    match ws with
    | [_, operator, _] => if isBinaryWord operator then wholly facts ws .operand else peeled
    | [_, _, _, _] => peeled
    | ws => wholly facts ws (front ws)

end Condition
end Shell
end ImagePolicy
