/-
# Arithmetic

Expressions of integers, with the operators of C but for those that count up and down. Integers have
64 bits and wrap around. Only the side of `&&`, `||` and `?:` that counts is carried out, but all of
the expression is read. A variable stands for the number that its value spells.

Key definitions: `Shell.ArithmeticToken`, `Shell.arithmetic`.
-/
import ImagePolicy.Shell.State
import ImagePolicy.Shell.Format

namespace ImagePolicy
namespace Shell

/-! ### Integers -/

/-- An integer of 64 bits. -/
def wrapped (n : Int) : Int := Int.bmod n 18446744073709551616

/-- Whether an integer has 64 bits. -/
def fits (n : Int) : Bool := integerBounds.1 ≤ n && n ≤ integerBounds.2

/-- The integer that a value spells; the empty value is zero. -/
def integerOf (text : Octets) : Act Int := do
  let (n, rest) := integerAt text
  if fits n && rest.all isSpaceChar then return n else notNumber text

/-! ### Tokens -/

/-- An operator of two operands. -/
inductive BinaryOperator where
  | times
  | dividedBy
  | remainder
  | plus
  | minus
  | shiftLeft
  | shiftRight
  | less
  | lessOrEqual
  | greater
  | greaterOrEqual
  | equal
  | unequal
  | bitAnd
  | bitXor
  | bitOr
  deriving DecidableEq, Repr

/-- The rank of an operator; the lower it is, the closer it binds. -/
def BinaryOperator.rank : BinaryOperator → Nat
  | .times => 0
  | .dividedBy => 0
  | .remainder => 0
  | .plus => 1
  | .minus => 1
  | .shiftLeft => 2
  | .shiftRight => 2
  | .less => 3
  | .lessOrEqual => 3
  | .greater => 3
  | .greaterOrEqual => 3
  | .equal => 4
  | .unequal => 4
  | .bitAnd => 5
  | .bitXor => 6
  | .bitOr => 7

/-- A token of an expression. -/
inductive ArithmeticToken where
  | number (n : Int)
  | name (text : Octets)
  | operator (o : BinaryOperator)
  | assign (o : Option BinaryOperator)
  | both
  | either
  | not
  | invert
  | question
  | colon
  | opening
  | closing
  | wrong
  deriving DecidableEq, Repr

/-- The operator in front of a text, and its length. -/
def arithmeticOperator : Octets → ArithmeticToken × Nat
  | '<' :: '<' :: '=' :: _ => (.assign (some .shiftLeft), 3)
  | '>' :: '>' :: '=' :: _ => (.assign (some .shiftRight), 3)
  | '<' :: '<' :: _ => (.operator .shiftLeft, 2)
  | '>' :: '>' :: _ => (.operator .shiftRight, 2)
  | '<' :: '=' :: _ => (.operator .lessOrEqual, 2)
  | '>' :: '=' :: _ => (.operator .greaterOrEqual, 2)
  | '<' :: _ => (.operator .less, 1)
  | '>' :: _ => (.operator .greater, 1)
  | '=' :: '=' :: _ => (.operator .equal, 2)
  | '!' :: '=' :: _ => (.operator .unequal, 2)
  | '&' :: '&' :: _ => (.both, 2)
  | '|' :: '|' :: _ => (.either, 2)
  | '*' :: '=' :: _ => (.assign (some .times), 2)
  | '/' :: '=' :: _ => (.assign (some .dividedBy), 2)
  | '%' :: '=' :: _ => (.assign (some .remainder), 2)
  | '+' :: '=' :: _ => (.assign (some .plus), 2)
  | '-' :: '=' :: _ => (.assign (some .minus), 2)
  | '&' :: '=' :: _ => (.assign (some .bitAnd), 2)
  | '^' :: '=' :: _ => (.assign (some .bitXor), 2)
  | '|' :: '=' :: _ => (.assign (some .bitOr), 2)
  | '=' :: _ => (.assign none, 1)
  | '!' :: _ => (.not, 1)
  | '&' :: _ => (.operator .bitAnd, 1)
  | '|' :: _ => (.operator .bitOr, 1)
  | '^' :: _ => (.operator .bitXor, 1)
  | '*' :: _ => (.operator .times, 1)
  | '/' :: _ => (.operator .dividedBy, 1)
  | '%' :: _ => (.operator .remainder, 1)
  | '+' :: _ => (.operator .plus, 1)
  | '-' :: _ => (.operator .minus, 1)
  | '~' :: _ => (.invert, 1)
  | '?' :: _ => (.question, 1)
  | ':' :: _ => (.colon, 1)
  | '(' :: _ => (.opening, 1)
  | ')' :: _ => (.closing, 1)
  | _ => (.wrong, 1)

/-- The tokens of an expression. -/
def arithmeticTokens : Nat → Octets → List ArithmeticToken
  | 0, _ => []
  | _ + 1, [] => []
  | fuel + 1, c :: o =>
    if c = ' ' ∨ c = '\t' ∨ c = '\n' then arithmeticTokens fuel o
    else if c.isDigit then
      let (n, rest) := constantAt (c :: o)
      .number (min (n : Int) integerBounds.2) :: arithmeticTokens fuel rest
    else if isNameStart c then
      .name ((c :: o).takeWhile isNameChar) :: arithmeticTokens fuel ((c :: o).dropWhile isNameChar)
    else
      let (t, n) := arithmeticOperator (c :: o)
      t :: arithmeticTokens fuel ((c :: o).drop n)

/-! ### Values -/

/-- What an evaluation goes on from: the tokens left, and whether what is read counts. -/
structure Calculation where
  text : Octets
  tokens : List ArithmeticToken
  counts : Bool

/-- A step of an evaluation. -/
abbrev Calculating (α : Type) := StateT Calculation (ExceptT Halt (StateM State)) α

namespace Calculating

/-- Gives up. -/
def fail {α : Type} (what : String) : Calculating α := do
  let c ← get
  abort ("arithmetic expression: ".toList ++ what.toList ++ ": \"".toList ++ c.text ++ ['"'])

/-- The token in front. -/
def peek : Calculating (Option ArithmeticToken) := return (← get).tokens.head?

/-- Passes the token in front. -/
def pass : Calculating Unit := modify fun c => { c with tokens := c.tokens.tail }

/-- Does something that may not count. -/
def when {α : Type} (counts : Bool) (body : Calculating α) : Calculating α := do
  let c ← get
  set { c with counts := c.counts && counts }
  let a ← body
  modify fun d => { d with counts := c.counts }
  return a

/-- A truth value as a number. -/
def ofBool (b : Bool) : Int := if b then 1 else 0

/-- The value of an operator. -/
def apply (o : BinaryOperator) (a b : Int) : Calculating Int := do
  let bits : Int → BitVec 64 := BitVec.ofInt 64
  let amount : Nat := (b % 64).toNat
  match o with
  | .times => return wrapped (a * b)
  | .dividedBy => if b = 0 then fail "division by zero" else return wrapped (Int.tdiv a b)
  | .remainder => if b = 0 then fail "division by zero" else return Int.tmod a b
  | .plus => return wrapped (a + b)
  | .minus => return wrapped (a - b)
  | .shiftLeft => return (bits a <<< amount).toInt
  | .shiftRight => return ((bits a).sshiftRight amount).toInt
  | .less => return ofBool (a < b)
  | .lessOrEqual => return ofBool (a ≤ b)
  | .greater => return ofBool (b < a)
  | .greaterOrEqual => return ofBool (b ≤ a)
  | .equal => return ofBool (a = b)
  | .unequal => return ofBool (a ≠ b)
  | .bitAnd => return (bits a &&& bits b).toInt
  | .bitXor => return (bits a ^^^ bits b).toInt
  | .bitOr => return (bits a ||| bits b).toInt

/-- The number that a variable stands for. -/
def lookUp (name : Octets) : Calculating Int := do
  if (← get).counts then
    let s : State ← getThe State
    integerOf ((s.value? name).getD [])
  else return 0

/-- The levels of an expression: assignments, choices, alternatives, conjunctions, operators of two
operands, and operands. -/
inductive Level where
  | assignment
  | choice
  | either
  | both
  | binary (rank : Nat)
  | operand

/-- Applies operators of a rank or lower from the left, with the next operand read one level
down. -/
def applyAll (down : Level → Calculating Int) (rank : Nat) : Nat → Int → Calculating Int
  | 0, a => return a
  | n + 1, a => do
    match ← peek with
    | some (.operator o) =>
      if o.rank = rank then
        pass
        let b ← down (match rank with | 0 => .operand | r + 1 => .binary r)
        let v ← if (← get).counts then apply o a b else pure b
        applyAll down rank n v
      else return a
    | _ => return a

/-- The value of an operand. -/
def operand (down : Level → Calculating Int) : Calculating Int := do
  match ← peek with
  | some (.number n) => pass; return n
  | some (.name name) => pass; lookUp name
  | some .opening =>
    pass
    let a ← down .assignment
    match ← peek with
    | some .closing => pass; return a
    | _ => fail "expecting ')'"
  | some (.operator .plus) => pass; down .operand
  | some (.operator .minus) => pass; return wrapped (-(← down .operand))
  | some .not => pass; return ofBool ((← down .operand) = 0)
  | some .invert => pass; return -(← down .operand) - 1
  | _ => fail "expecting primary"

/-- The value of an assignment, or of what is none. -/
def assignment (down : Level → Calculating Int) : Calculating Int := do
  match (← get).tokens with
  | .name name :: .assign o :: rest =>
    modify fun c => { c with tokens := rest }
    let b ← down .assignment
    if (← get).counts then
      let v ← match o with
        | none => pure b
        | some o => apply o (← lookUp name) b
      setVariable name (Text.integer v)
      return v
    else return b
  | _ => down .choice

/-- The value of a choice, or of what is none. -/
def choice (down : Level → Calculating Int) : Calculating Int := do
  let a ← down .either
  match ← peek with
  | some .question =>
    pass
    let b ← when (a ≠ 0) (down .assignment)
    match ← peek with
    | some .colon =>
      pass
      let c ← when (a = 0) (down .choice)
      return if a ≠ 0 then b else c
    | _ => fail "expecting ':'"
  | _ => return a

/-- The value of a level, given how to read the levels below it. -/
def step (fuel : Nat) (down : Level → Calculating Int) : Level → Calculating Int
  | .assignment => assignment down
  | .choice => choice down
  | .either => do
    let a ← down .both
    match ← peek with
    | some .either =>
      pass
      let b ← when (a = 0) (down .either)
      return ofBool (a ≠ 0 || b ≠ 0)
    | _ => return a
  | .both => do
    let a ← down (.binary 7)
    match ← peek with
    | some .both =>
      pass
      let b ← when (a ≠ 0) (down .both)
      return ofBool (a ≠ 0 && b ≠ 0)
    | _ => return a
  | .binary rank => do
    let a ← down (match rank with | 0 => .operand | r + 1 => .binary r)
    applyAll down rank fuel a
  | .operand => operand down

/-- The value of a level, so many levels deep at most. -/
def levelAt (fuel : Nat) : Nat → Level → Calculating Int
  | 0, _ => fail "expecting primary"
  | n + 1, l => step fuel (levelAt fuel n) l

end Calculating

/-- The value of an expression. -/
def arithmetic (text : Octets) : Act Int := do
  let tokens := arithmeticTokens (text.length + 1) text
  let depth := 16 * (tokens.length + 2)
  let whole : Calculating Int := do
    let a ← Calculating.levelAt tokens.length depth .assignment
    match ← Calculating.peek with
    | none => return a
    | some _ => Calculating.fail "expecting EOF"
  return (← whole.run ⟨text, tokens, true⟩).1

end Shell
end ImagePolicy
