/-
# Scripts

The scripts that rule engines are written in: the command language of POSIX. A word is made of
pieces, which are expanded when its command runs. Commands are joined by `&&`, `||`, `;` and bars,
and grouped, chosen and repeated by reserved words. A command that can complain knows the line it
stands on. The text of a document in the script is read once; a redirection refers to it by number.

Key definitions: `Shell.Modifier`, `Shell.WordPiece`, `Shell.Redirect`, `Shell.Command`.
-/
import ImagePolicy.Shell.Octets

namespace ImagePolicy
namespace Shell

/-- Where a stream is sent to or taken from, but for the words that say so. -/
inductive Arrow where
  | read
  | write
  | overwrite
  | append
  | update
  | copyInput
  | copyOutput
  | document (dropTabs : Bool)
  deriving DecidableEq, Repr

mutual

/-- What is made of the value of a parameter. -/
inductive Modifier where
  | value
  | length
  | orElse (evenIfEmpty : Bool) (word : List WordPiece)
  | orAssign (evenIfEmpty : Bool) (word : List WordPiece)
  | orFail (evenIfEmpty : Bool) (word : List WordPiece)
  | ifPresent (evenIfEmpty : Bool) (word : List WordPiece)
  | dropFront (longest : Bool) (pattern : List WordPiece)
  | dropEnd (longest : Bool) (pattern : List WordPiece)
  | wrong

/-- A piece of a word. What is quoted is neither split into fields nor matched with file names. An
empty mark says that there were quotes. -/
inductive WordPiece where
  | mark
  | plain (text : Octets) (quoted : Bool)
  | parameter (name : Octets) (modifier : Modifier) (quoted : Bool)
  | substitution (body : Option Command) (quoted : Bool)
  | arithmetic (expression : List WordPiece) (quoted : Bool)

/-- The other end of a redirection. -/
inductive Target where
  | file (arrow : Arrow) (path : List WordPiece)
  | copy (word : List WordPiece)
  | document (number : Nat)

/-- A redirection of a stream. -/
inductive Redirect where
  | of (descriptor : Nat) (target : Target)

/-- A command. -/
inductive Command where
  | simple (line : Nat) (assignments : List (Octets × List WordPiece))
      (words : List (List WordPiece)) (redirects : List Redirect)
  | pipeline (commands : List Command) (waits : Bool)
  | negated (body : Command)
  | both (first second : Command)
  | either (first second : Command)
  | sequence (first second : Command)
  | background (line : Nat) (body : Command) (redirects : List Redirect)
  | subshell (line : Nat) (body : Command) (redirects : List Redirect)
  | redirected (line : Nat) (body : Command) (redirects : List Redirect)
  | branch (condition body : Command) (otherwise : Option Command)
  | loop (untilDone : Bool) (condition body : Command)
  | each (line : Nat) (name : Octets) (values : List (List WordPiece)) (body : Command)
  | choice (line : Nat) (subject : List WordPiece)
      (cases : List (List (List WordPiece) × Option Command))
  | define (name : Octets) (body : Command)

end

/-- A word. -/
abbrev Word := List WordPiece

/-- A command that does nothing. -/
def Command.nothing : Command := .simple 0 [] [] []

instance : Inhabited Command := ⟨.nothing⟩

/-- The text of a word without quotes and expansions. -/
def bareText? : Word → Option Octets
  | [.plain text false] => some text
  | _ => none

end Shell
end ImagePolicy
