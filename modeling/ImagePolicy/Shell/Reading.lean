/-
# Reading scripts

What reading a script goes on from: the text not yet read, the line it stands on, a lexeme that was
read too far, the documents whose text comes after the line, and the aliases that stand for text.
Reading ends at a fault, which knows its line.

What nests in scripts (words, lists, commands) is read by functions that are given the reading one
level down, so that each of them is a plain definition; the levels are tied together in the grammar.

Key definitions: `Shell.Lexeme`, `Shell.Source`, `Shell.Reading`, `Shell.Deeper`.
-/
import ImagePolicy.Shell.Script

namespace ImagePolicy
namespace Shell

/-- A word, a reserved word, or an operator. -/
inductive Lexeme where
  | ending
  | newline
  | semicolon
  | ampersand
  | both
  | either
  | bar
  | opening
  | closing
  | caseEnd
  | arrow (descriptor : Option Nat) (kind : Arrow)
  | word (w : Word)
  | reserved (name : String)

/-- The wording of a lexeme in a message. -/
def Lexeme.name : Lexeme → String
  | .ending => "end of file"
  | .newline => "newline"
  | .semicolon => "\";\""
  | .ampersand => "\"&\""
  | .both => "\"&&\""
  | .either => "\"||\""
  | .bar => "\"|\""
  | .opening => "\"(\""
  | .closing => "\")\""
  | .caseEnd => "\";;\""
  | .arrow _ _ => "redirection"
  | .word _ => "word"
  | .reserved name => "\"" ++ name ++ "\""

/-- Why a text is no script, and the line where that shows. -/
structure ScriptFault where
  line : Nat
  message : Octets
  deriving DecidableEq, Repr

/-- A document that is named on the line: its number, the line that ends it, whether it is taken as
it stands, and whether tabs go in front of its lines. -/
structure Awaited where
  number : Nat
  ending : Octets
  literal : Bool
  dropTabs : Bool

/-- What reading goes on from. An alias is not taken again before the text it stands for is read. -/
structure Source where
  rest : Octets
  line : Nat
  pushed : Option Lexeme := none
  awaited : List Awaited := []
  documents : List (Nat × Word) := []
  nextDocument : Nat := 0
  aliases : List (Octets × Octets) := []
  taken : List (Octets × Nat) := []

/-- A step of reading. -/
abbrev Reading (α : Type) := StateT Source (Except ScriptFault) α

/-- How the characters of a word are read. -/
inductive Manner where
  | bare (marksOnly : Bool)
  | quotes
  | braces
  | quotedBraces
  | document
  | arithmetic
  deriving DecidableEq, Repr

/-- How far a list of commands goes: to the end of the line, to the reserved word that ends it, or
so that it may be empty. -/
inductive Extent where
  | line
  | compound
  | inner
  deriving DecidableEq, Repr

/-- What a lexeme may be besides what it looks like: line breaks may go before it, it may be a
reserved word, and it may be an alias. -/
structure Allowance where
  newlines : Bool := false
  reserved : Bool := false
  aliases : Bool := false

/-- Everything is allowed. -/
def Allowance.all : Allowance := ⟨true, true, true⟩

/-- The reading one level down. -/
structure Deeper where
  pieces : Manner → Reading Word
  list : Extent → Reading (Option Command)
  enclosed : Reading (Option Command)
  command : Allowance → Reading Command

namespace Reading

/-- Ends at a fault. -/
def fail {α : Type} (what : String) : Reading α := do
  throw ⟨(← get).line, "Syntax error: ".toList ++ what.toList⟩

/-- The text not yet read. -/
def rest : Reading Octets := return (← get).rest

/-- Passes so many characters. -/
def pass (n : Nat) : Reading Unit :=
  modify fun s =>
    { s with
      rest := s.rest.drop n
      line := s.line + ((s.rest.take n).filter (· = '\n')).length }

/-- Takes the characters in front that have a property. -/
def takeWhile (p : Char → Bool) : Reading Octets := do
  let taken := (← rest).takeWhile p
  pass taken.length
  return taken

/-- The rest of a text after line breaks that a backslash takes away. -/
def joined : Octets → Octets
  | '\\' :: '\n' :: o => joined o
  | o => o

/-- Passes line breaks that a backslash takes away. -/
def passJoins : Reading Unit := do
  let o ← rest
  pass (o.length - (joined o).length)

/-- Takes steps until one comes to an end. -/
def steps {α β : Type} (step : α → Reading (α ⊕ β)) : Nat → α → Reading β
  | 0, _ => fail "end of file unexpected"
  | n + 1, a => do
    match ← step a with
    | .inl a => steps step n a
    | .inr b => return b

/-- Takes steps until one comes to an end, each of which reads a character or more but for a few. -/
def run {α β : Type} (step : α → Reading (α ⊕ β)) (a : α) : Reading β := do
  steps step (2 * (← rest).length + 8) a

end Reading
end Shell
end ImagePolicy
