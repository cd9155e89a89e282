/-
# Words

The pieces of words as they stand in a script. Inside double quotes only `$`, grave accents and
backslashes mean something; a backslash keeps its place there unless it stands before one of the
characters it can take the meaning of. What stands in braces after the operator of a parameter is
read up to the closing brace, with quotes of its own if the parameter stands outside of quotes or
the operator drops a pattern.

Key definitions: `Shell.readPieces`, `Shell.dollarPiece`, `Shell.bracedPiece`.
-/
import ImagePolicy.Shell.Reading

namespace ImagePolicy
namespace Shell

open Reading (fail rest pass takeWhile passJoins)

/-- Whether a character ends a word. -/
def endsWord (c : Char) : Bool :=
  [' ', '\t', '\n', ';', '&', '|', '<', '>', '(', ')'].contains c

/-- The parameters that have a sign for a name. -/
def signs : List Char := ['@', '*', '#', '?', '$', '!', '-']

/-- Whether what is read is quoted. -/
def Manner.isQuoted : Manner → Bool
  | .bare _ => false
  | .braces => false
  | _ => true

/-- A word under way: its pieces, newest first, how many parentheses are open, and whether double
quotes are open inside quoted braces. -/
structure WordProgress where
  pieces : Word := []
  depth : Nat := 0
  quotesOpen : Bool := false

/-- Adds a text. -/
def WordProgress.add (p : WordProgress) (text : Octets) (quoted : Bool) : WordProgress :=
  match p.pieces with
  | .plain before q :: ps =>
    if q = quoted then { p with pieces := .plain (before ++ text) q :: ps }
    else { p with pieces := .plain text quoted :: p.pieces }
  | _ => { p with pieces := .plain text quoted :: p.pieces }

/-- Adds pieces. -/
def WordProgress.append (p : WordProgress) (w : Word) : WordProgress :=
  { p with pieces := w.reverse ++ p.pieces }

/-! ### Parameters and substitutions -/

/-- The manner of a word after the operator of a parameter. -/
def operandManner (quoted : Bool) : Manner :=
  if quoted then .quotedBraces else .braces

/-- A parameter whose braces hold what is no operator. -/
def wrongPiece (down : Deeper) (name : Octets) (quoted : Bool) : Reading WordPiece := do
  let _ ← down.pieces (operandManner quoted)
  return .parameter name .wrong quoted

/-- The operator after the name of a parameter in braces, and its word. -/
def operatorPiece (down : Deeper) (name : Octets) (quoted : Bool) : Reading WordPiece := do
  let word := fun (n : Nat) (make : Word → Modifier) => do
    pass n
    let w ← down.pieces (operandManner quoted)
    return WordPiece.parameter name (make w) quoted
  let pattern := fun (n : Nat) (make : Word → Modifier) => do
    pass n
    let w ← down.pieces .braces
    return WordPiece.parameter name (make w) quoted
  passJoins
  match ← rest with
  | '\x7d' :: _ => pass 1; return .parameter name .value quoted
  | ':' :: '-' :: _ => word 2 (.orElse true)
  | ':' :: '=' :: _ => word 2 (.orAssign true)
  | ':' :: '?' :: _ => word 2 (.orFail true)
  | ':' :: '+' :: _ => word 2 (.ifPresent true)
  | '-' :: _ => word 1 (.orElse false)
  | '=' :: _ => word 1 (.orAssign false)
  | '?' :: _ => word 1 (.orFail false)
  | '+' :: _ => word 1 (.ifPresent false)
  | '#' :: '#' :: _ => pattern 2 (.dropFront true)
  | '#' :: _ => pattern 1 (.dropFront false)
  | '%' :: '%' :: _ => pattern 2 (.dropEnd true)
  | '%' :: _ => pattern 1 (.dropEnd false)
  | ':' :: _ => pass 2; wrongPiece down name quoted
  | _ => pass 1; wrongPiece down name quoted

/-- The length of a parameter, after the number sign. -/
def lengthPiece (down : Deeper) (name : Octets) (quoted : Bool) : Reading WordPiece := do
  match ← rest with
  | '\x7d' :: _ => pass 1; return .parameter name .length quoted
  | _ => wrongPiece down name quoted

/-- The piece of a parameter in braces, after the opening one. -/
def bracedPiece (down : Deeper) (quoted : Bool) : Reading WordPiece := do
  passJoins
  match ← rest with
  | '#' :: '\x7d' :: _ => pass 2; return .parameter ['#'] .value quoted
  | '#' :: c :: o =>
    if isNameStart c then
      pass 1
      lengthPiece down (← takeWhile isNameChar) quoted
    else if c.isDigit then
      pass 1
      lengthPiece down (← takeWhile Char.isDigit) quoted
    else if o.head? = some '\x7d' then
      pass 2
      if signs.contains c then lengthPiece down [c] quoted else wrongPiece down [] quoted
    else
      pass 1
      operatorPiece down ['#'] quoted
  | c :: _ =>
    if isNameStart c then operatorPiece down (← takeWhile isNameChar) quoted
    else if c.isDigit then operatorPiece down (← takeWhile Char.isDigit) quoted
    else if signs.contains c then
      pass 1
      operatorPiece down [c] quoted
    else wrongPiece down [] quoted
  | [] => wrongPiece down [] quoted

/-- The piece after a dollar sign. -/
def dollarPiece (down : Deeper) (quoted : Bool) : Reading WordPiece := do
  passJoins
  match ← rest with
  | '(' :: _ =>
    pass 1
    passJoins
    match ← rest with
    | '(' :: _ => pass 1; return .arithmetic (← down.pieces .arithmetic) quoted
    | _ => return .substitution (← down.enclosed) quoted
  | '\x7b' :: _ => pass 1; bracedPiece down quoted
  | c :: _ =>
    if isNameStart c then return .parameter (← takeWhile isNameChar) .value quoted
    else if c.isDigit ∨ signs.contains c then
      pass 1
      return .parameter [c] .value quoted
    else return .plain ['$'] quoted
  | [] => return .plain ['$'] quoted

/-- The script between grave accents, in which a backslash takes the meaning of a few characters,
and what stands after them. -/
def untilGrave (quoted : Bool) (taken : Octets) : Octets → Option (Octets × Octets)
  | [] => none
  | '\x60' :: o => some (taken.reverse, o)
  | '\\' :: '\n' :: o => untilGrave quoted taken o
  | '\\' :: c :: o =>
    if c = '\x60' ∨ c = '\\' ∨ c = '$' ∨ (quoted ∧ c = '"') then untilGrave quoted (c :: taken) o
    else untilGrave quoted (c :: '\\' :: taken) o
  | c :: o => untilGrave quoted (c :: taken) o

/-- The piece after a grave accent. -/
def gravePiece (down : Deeper) (quoted : Bool) : Reading WordPiece := do
  let o ← rest
  match untilGrave quoted [] o with
  | none =>
    pass o.length
    fail "EOF in backquote substitution"
  | some (script, after) =>
    let s ← get
    set { s with rest := script, line := 1, pushed := none, awaited := [] }
    let body ← down.list .inner
    modify fun t =>
      { t with rest := s.rest, line := s.line, pushed := s.pushed, awaited := s.awaited }
    pass (o.length - after.length)
    return .substitution body quoted

/-! ### Pieces -/

/-- The characters that a backslash takes the meaning of when a word is read in a manner; none if
it takes that of any. -/
def Manner.escaped? : Manner → Option (List Char)
  | .bare _ => none
  | .braces => none
  | .quotedBraces => some ['$', '\x60', '"', '\\', '\x7d']
  | .document => some ['$', '\x60', '\\']
  | _ => some ['$', '\x60', '"', '\\']

/-- What comes of a backslash. -/
def escapePiece (m : Manner) (p : WordProgress) : Reading WordProgress := do
  match ← rest with
  | '\n' :: _ => pass 1; return p
  | [] => return p.add ['\\'] true
  | c :: _ =>
    pass 1
    match m.escaped? with
    | none => return p.add [c] true
    | some cs => return p.add (if cs.contains c then [c] else ['\\', c]) true

/-- What comes of an apostrophe outside of quotes. -/
def apostrophePiece (p : WordProgress) : Reading WordProgress := do
  let o ← rest
  match Text.splitFirst '\'' o with
  | some (text, _) =>
    pass (text.length + 1)
    return p.append [.mark, .plain text true]
  | none =>
    pass o.length
    fail "Unterminated quoted string"

/-- What comes of double quotes outside of quotes. All operands in quotes leave no mark, so that
there is no field if there are none. -/
def quotesPiece (down : Deeper) (p : WordProgress) : Reading WordProgress := do
  match ← down.pieces .quotes with
  | [.parameter ['@'] .value true] => return p.append [.parameter ['@'] .value true]
  | w => return p.append (.mark :: w)

/-- Whether a character stands for itself in every manner. -/
def isOrdinary (c : Char) : Bool :=
  !endsWord c && !(['\\', '$', '\x60', '\'', '"', '\x7d'].contains c)

/-- What comes of characters that stand for themselves. -/
def plainPiece (m : Manner) (p : WordProgress) : Reading WordProgress := do
  let o ← rest
  let text := o.takeWhile isOrdinary
  let text := if text.isEmpty then o.take 1 else text
  pass text.length
  return p.add text m.isQuoted

/-- What the end of the text means for a word. -/
def Manner.finish (m : Manner) (p : WordProgress) : Reading Word :=
  match m with
  | .bare _ => return p.pieces.reverse
  | .document => return p.pieces.reverse
  | .braces => fail "Missing '\x7d'"
  | .arithmetic => fail "Missing '))'"
  | _ => fail "Unterminated quoted string"

/-- A step in reading a word: its progress, or the whole word. -/
def pieceStep (down : Deeper) (m : Manner) (p : WordProgress) :
    Reading (WordProgress ⊕ Word) := do
  match ← rest with
  | [] => return .inr (← m.finish p)
  | c :: o =>
    if c = '\\' then
      pass 1
      return .inl (← escapePiece m p)
    else if c = '$' ∧ m ≠ .bare true then
      pass 1
      return .inl (p.append [← dollarPiece down m.isQuoted])
    else if c = '\x60' ∧ m ≠ .bare true then
      pass 1
      return .inl (p.append [← gravePiece down m.isQuoted])
    else match m with
      | .bare _ =>
        if endsWord c then return .inr p.pieces.reverse
        else if c = '\'' then
          pass 1
          return .inl (← apostrophePiece p)
        else if c = '"' then
          pass 1
          return .inl (← quotesPiece down p)
        else return .inl (← plainPiece m p)
      | .braces =>
        if c = '\x7d' then
          pass 1
          return .inr p.pieces.reverse
        else if c = '\'' then
          pass 1
          return .inl (← apostrophePiece p)
        else if c = '"' then
          pass 1
          return .inl (← quotesPiece down p)
        else return .inl (← plainPiece m p)
      | .quotes =>
        if c = '"' then
          pass 1
          return .inr p.pieces.reverse
        else return .inl (← plainPiece m p)
      | .quotedBraces =>
        if c = '\x7d' ∧ !p.quotesOpen then
          pass 1
          return .inr p.pieces.reverse
        else if c = '"' then
          pass 1
          return .inl { p with quotesOpen := !p.quotesOpen }
        else return .inl (← plainPiece m p)
      | .document => return .inl (← plainPiece m p)
      | .arithmetic =>
        if c = '(' then
          pass 1
          return .inl { p.add ['('] true with depth := p.depth + 1 }
        else if c = ')' ∧ 0 < p.depth then
          pass 1
          return .inl { p.add [')'] true with depth := p.depth - 1 }
        else if c = ')' ∧ o.head? = some ')' then
          pass 2
          return .inr p.pieces.reverse
        else return .inl (← plainPiece m p)

/-- The pieces of a word that is read in a manner. -/
def readPieces (down : Deeper) (m : Manner) : Reading Word :=
  Reading.run (pieceStep down m) {}

/-- Whether a word has quotes. -/
def isQuotedWord (w : Word) : Bool :=
  w.any fun
    | .mark => true
    | .plain _ quoted => quoted
    | _ => false

/-- The text of a word whose expansions are not taken. -/
def literalText (w : Word) : Octets :=
  w.flatMap fun
    | .plain text _ => text
    | _ => []

end Shell
end ImagePolicy
