/-
# Lexemes of scripts

A script as words, reserved words and operators. A comment starts where a word could and runs to
the end of the line. A single digit right before an arrow is the descriptor it redirects. After a
line break come the documents that were named on the line. An alias is read as the text it stands
for, but not again within that text.

Key definitions: `Shell.nextLexeme`, `Shell.pushLexeme`, `Shell.expect`, `Shell.readRedirect`.
-/
import ImagePolicy.Shell.Word

namespace ImagePolicy
namespace Shell

open Reading (fail rest pass takeWhile passJoins)

/-! ### Documents -/

/-- The lines of a document and what stands after the line that ends it. Where a backslash joins
lines, the second of them does not end the document. -/
def documentText (a : Awaited) : Nat → (joined : Bool) → Octets → Octets × Octets
  | 0, _, o => ([], o)
  | _, _, [] => ([], [])
  | fuel + 1, joined, o =>
    let o := if a.dropTabs ∧ !joined then o.dropWhile (· = '\t') else o
    let line := o.takeWhile (· ≠ '\n')
    let after := o.drop (line.length + 1)
    if !joined ∧ line = a.ending then ([], after)
    else
      let slashes := (line.reverse.takeWhile (· = '\\')).length
      let joins := !a.literal ∧ slashes % 2 = 1
      let line := o.take (line.length + 1)
      let (text, after) := documentText a fuel joins after
      (line ++ text, after)

/-- Reads the text of a document. -/
def readDocument (down : Deeper) (a : Awaited) : Reading Unit := do
  let o ← rest
  let line := (← get).line
  let (text, after) := documentText a (o.length + 1) false o
  let word ←
    if a.literal then pure [WordPiece.plain text true]
    else
      modify fun s => { s with rest := text }
      down.pieces .document
  modify fun s => { s with rest := o, line }
  pass (o.length - after.length)
  modify fun s => { s with documents := s.documents ++ [(a.number, word)] }

/-- Reads the documents that are named on the line. -/
def readDocuments (down : Deeper) : Reading Unit := do
  let awaited := (← get).awaited
  modify fun s => { s with awaited := [] }
  awaited.forM (readDocument down)

/-! ### Lexemes -/

/-- The arrow in front of a text, of a descriptor if one is named before it, and its length. -/
def arrow? (descriptor : Option Nat) : Octets → Option (Lexeme × Nat)
  | '<' :: '<' :: '-' :: _ => some (.arrow descriptor (.document true), 3)
  | '<' :: '<' :: _ => some (.arrow descriptor (.document false), 2)
  | '<' :: '&' :: _ => some (.arrow descriptor .copyInput, 2)
  | '<' :: '>' :: _ => some (.arrow descriptor .update, 2)
  | '<' :: _ => some (.arrow descriptor .read, 1)
  | '>' :: '>' :: _ => some (.arrow descriptor .append, 2)
  | '>' :: '|' :: _ => some (.arrow descriptor .overwrite, 2)
  | '>' :: '&' :: _ => some (.arrow descriptor .copyOutput, 2)
  | '>' :: _ => some (.arrow descriptor .write, 1)
  | _ => none

/-- The operator in front of a text, and its length. -/
def operator? : Octets → Option (Lexeme × Nat)
  | '&' :: '&' :: _ => some (.both, 2)
  | '&' :: _ => some (.ampersand, 1)
  | '|' :: '|' :: _ => some (.either, 2)
  | '|' :: _ => some (.bar, 1)
  | ';' :: ';' :: _ => some (.caseEnd, 2)
  | ';' :: _ => some (.semicolon, 1)
  | '(' :: _ => some (.opening, 1)
  | ')' :: _ => some (.closing, 1)
  | o => arrow? none o

/-- A word, or the arrow behind a single digit. -/
def wordLexeme (down : Deeper) (marksOnly : Bool) : Reading Lexeme := do
  let w ← down.pieces (.bare marksOnly)
  let descriptor := match bareText? w with
    | some [c] => Text.digit? c
    | _ => none
  match descriptor, arrow? descriptor (← rest) with
  | some _, some (lexeme, n) => pass n; return lexeme
  | _, _ => return .word w

/-- A step in reading a lexeme as it stands. -/
def lexemeStep (down : Deeper) (marksOnly : Bool) (_ : Unit) : Reading (Unit ⊕ Lexeme) := do
  passJoins
  match ← rest with
  | [] =>
    readDocuments down
    return .inr .ending
  | '\n' :: _ =>
    pass 1
    readDocuments down
    return .inr .newline
  | c :: o =>
    if c = ' ' ∨ c = '\t' then
      pass 1
      return .inl ()
    else if c = '#' then
      pass ((c :: o).takeWhile (· ≠ '\n')).length
      return .inl ()
    else match operator? (c :: o) with
      | some (lexeme, n) => pass n; return .inr lexeme
      | none => return .inr (← wordLexeme down marksOnly)

/-- The next lexeme as it stands. -/
def plainLexeme (down : Deeper) (marksOnly : Bool) : Reading Lexeme := do
  match (← get).pushed with
  | some lexeme =>
    modify fun s => { s with pushed := none }
    return lexeme
  | none => Reading.run (lexemeStep down marksOnly) ()

/-- Lets a lexeme be the next one again. -/
def pushLexeme (lexeme : Lexeme) : Reading Unit :=
  modify fun s => { s with pushed := some lexeme }

/-- The reserved words. -/
def reservedWords : List String :=
  ["!", "case", "do", "done", "elif", "else", "esac", "fi", "for", "if", "in", "then", "until",
    "while", "\x7b", "\x7d"]

/-- Takes an alias: its text is read next. -/
def takeAlias (name text : Octets) : Reading Unit :=
  modify fun s =>
    { s with
      rest := text ++ s.rest
      taken := (name, s.rest.length) :: s.taken.filter fun a => s.rest.length ≤ a.2 }

/-- The text of an alias that may be taken here. -/
def alias? (name : Octets) : Reading (Option Octets) := do
  let s ← get
  let busy := s.taken.any fun (n, left) => n = name && left < s.rest.length + 1
  return if busy then none else s.aliases.lookup name

/-- A step in reading a lexeme that may be more than it looks like. -/
def nextStep (down : Deeper) (a : Allowance) (_ : Unit) : Reading (Unit ⊕ Lexeme) := do
  match ← plainLexeme down false with
  | .newline => return if a.newlines then .inl () else .inr .newline
  | .word w =>
    match bareText? w with
    | none => return .inr (.word w)
    | some text =>
      let name := String.ofList text
      if a.reserved ∧ reservedWords.contains name then return .inr (.reserved name)
      else if a.aliases then
        match ← alias? text with
        | some replacement =>
          takeAlias text replacement
          return .inl ()
        | none => return .inr (.word w)
      else return .inr (.word w)
  | lexeme => return .inr lexeme

/-- The next lexeme, with what is allowed for it. -/
def nextLexeme (down : Deeper) (a : Allowance) : Reading Lexeme :=
  Reading.run (nextStep down a) ()

/-- Ends at a lexeme that cannot stand where it does. -/
def unexpected {α : Type} (lexeme : Lexeme) : Reading α :=
  fail (lexeme.name ++ " unexpected")

/-- Ends at a lexeme in whose place only another can stand. -/
def unexpectedFor {α : Type} (lexeme : Lexeme) (expected : String) : Reading α :=
  fail (lexeme.name ++ " unexpected (expecting " ++ expected ++ ")")

/-- Takes a reserved word. -/
def expect (down : Deeper) (a : Allowance) (name : String) : Reading Unit := do
  match ← nextLexeme down a with
  | .reserved n =>
    if n = name then return () else unexpectedFor (.reserved n) ("\"" ++ name ++ "\"")
  | lexeme => unexpectedFor lexeme ("\"" ++ name ++ "\"")

/-! ### Redirections -/

/-- The descriptor that an arrow redirects if none is named. -/
def Arrow.descriptor : Arrow → Nat
  | .write => 1
  | .overwrite => 1
  | .append => 1
  | .copyOutput => 1
  | _ => 0

/-- The number of a new document that the line names. -/
def awaitDocument (dropTabs : Bool) (w : Word) : Reading Nat := do
  let number := (← get).nextDocument
  modify fun s =>
    { s with
      nextDocument := number + 1
      awaited := s.awaited ++ [⟨number, literalText w, isQuotedWord w, dropTabs⟩] }
  return number

/-- The redirection of an arrow, whose other end is the next word. -/
def readRedirect (down : Deeper) (descriptor : Option Nat) (kind : Arrow) : Reading Redirect := do
  let marksOnly := match kind with
    | .document _ => true
    | _ => false
  let w ← match ← plainLexeme down marksOnly with
    | .word w => pure w
    | lexeme => unexpected lexeme
  let target ← match kind with
    | .document dropTabs => pure (Target.document (← awaitDocument dropTabs w))
    | .copyInput => pure (.copy w)
    | .copyOutput => pure (.copy w)
    | kind => pure (.file kind w)
  return .of (descriptor.getD kind.descriptor) target

end Shell
end ImagePolicy
