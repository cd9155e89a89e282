/-
# The grammar of scripts

Lexemes read as commands. A script is read and run line by line, so a fault shows only once what
stands before it has run: `readLine` reads the commands up to the end of a line, or of the line
where the last of them is complete.

Key definitions: `Shell.readCommand`, `Shell.readList`, `Shell.readLine`.
-/
import ImagePolicy.Shell.Lexeme

namespace ImagePolicy
namespace Shell

open Reading (fail)

/-! ### Simple commands -/

/-- The name and the value of a word that assigns to a variable. -/
def assignment? : Word → Option (Octets × Word)
  | .plain text false :: ps =>
    match Text.splitFirst '=' text with
    | some (c :: cs, value) =>
      if isNameStart c ∧ cs.all isNameChar then
        some (c :: cs, if value.isEmpty then ps else .plain value false :: ps)
      else none
    | _ => none
  | _ => none

/-- Whether a text is the name of a variable. -/
def isName : Octets → Bool
  | [] => false
  | c :: cs => isNameStart c && cs.all isNameChar

/-- The commands of the shell whose names functions cannot have. -/
def specialNames : List String :=
  [".", ":", "break", "continue", "eval", "exec", "exit", "export", "local", "readonly", "return",
    "set", "shift", "times", "trap", "unset"]

/-- A simple command under way, each part newest first. -/
structure CommandProgress where
  line : Nat
  assignments : List (Octets × Word) := []
  words : List Word := []
  redirects : List Redirect := []

/-- The command that a simple command under way has become. -/
def CommandProgress.command (p : CommandProgress) : Command :=
  .simple p.line p.assignments.reverse p.words.reverse p.redirects.reverse

/-- The function whose name is the only word read, after the opening parenthesis. -/
def readFunction (down : Deeper) (name : Word) : Reading Command := do
  match ← nextLexeme down {} with
  | .closing => pure ()
  | lexeme => unexpectedFor lexeme "\")\""
  match bareText? name with
  | some text =>
    if isName text ∧ !specialNames.contains (String.ofList text) then
      return .define text (← down.command .all)
    else fail "Bad function name"
  | none => fail "Bad function name"

/-- A step in reading a simple command. -/
def simpleStep (down : Deeper) (p : CommandProgress) : Reading (CommandProgress ⊕ Command) := do
  match ← nextLexeme down { aliases := p.words.isEmpty } with
  | .word w =>
    match if p.words.isEmpty then assignment? w else none with
    | some a => return .inl { p with assignments := a :: p.assignments }
    | none => return .inl { p with words := w :: p.words }
  | .arrow descriptor kind =>
    return .inl { p with redirects := (← readRedirect down descriptor kind) :: p.redirects }
  | lexeme =>
    match lexeme, p.assignments, p.words, p.redirects with
    | .opening, [], [name], [] => return .inr (← readFunction down name)
    | lexeme, _, _, _ =>
      pushLexeme lexeme
      return .inr p.command

/-- A simple command. -/
def readSimple (down : Deeper) : Reading Command := do
  let line := (← get).line
  Reading.run (simpleStep down) { line }

/-! ### Compound commands -/

/-- A list of commands up to the reserved word that has to end it. -/
def readBody (down : Deeper) (ending : String) : Reading Command := do
  let body ← down.list .compound
  expect down {} ending
  return body.getD .nothing

/-- The branches after `if` or `elif`, each with its condition, and what is done otherwise. -/
def readBranches (down : Deeper) : Reading (List (Command × Command) × Option Command) :=
  Reading.run (fun branches => do
    let condition ← readBody down "then"
    let body ← down.list .compound
    let branches := branches ++ [(condition, body.getD .nothing)]
    match ← nextLexeme down {} with
    | .reserved "elif" => return .inl branches
    | .reserved "else" => return .inr (branches, some (← readBody down "fi"))
    | .reserved "fi" => return .inr (branches, none)
    | lexeme => unexpectedFor lexeme "\"fi\"") []

/-- Branches as a command. -/
def branchCommand : List (Command × Command) → Option Command → Option Command
  | [], otherwise => otherwise
  | (condition, body) :: rest, otherwise =>
    some (.branch condition body (branchCommand rest otherwise))

/-- The words in front that are no operators, and the lexeme after them. -/
def readWords (down : Deeper) : Reading (List Word × Lexeme) :=
  Reading.run (fun ws => do
    match ← nextLexeme down {} with
    | .word w => return .inl (ws ++ [w])
    | lexeme => return .inr (ws, lexeme)) []

/-- The words that a loop runs over: those after `in`, or all operands. -/
def readValues (down : Deeper) : Reading (List Word) := do
  match ← nextLexeme down .all with
  | .reserved "in" =>
    match ← readWords down with
    | (ws, .newline) => return ws
    | (ws, .semicolon) => return ws
    | (_, lexeme) => unexpected lexeme
  | .semicolon => return [[.parameter ['@'] .value true]]
  | lexeme =>
    pushLexeme lexeme
    return [[.parameter ['@'] .value true]]

/-- A loop over words, after `for`. -/
def readEach (down : Deeper) (line : Nat) : Reading Command := do
  match ← nextLexeme down {} with
  | .word w =>
    match bareText? w with
    | some name =>
      if !isName name then fail "Bad for loop variable"
      else
        let values ← readValues down
        expect down .all "do"
        return .each line name values (← readBody down "done")
    | none => fail "Bad for loop variable"
  | _ => fail "Bad for loop variable"

/-- The patterns of a case, after the lexeme that stands first. -/
def readPatterns (down : Deeper) (first : Lexeme) : Reading (List Word) := do
  let first ← match first with
    | .opening => nextLexeme down {}
    | lexeme => pure lexeme
  let word : Lexeme → Word := fun
    | .word w => w
    | .reserved name => [.plain name.toList false]
    | _ => []
  Reading.run (fun (ws, lexeme) => do
    let ws := ws ++ [word lexeme]
    match ← nextLexeme down {} with
    | .bar => return .inl (ws, ← nextLexeme down {})
    | .closing => return .inr ws
    | lexeme => unexpectedFor lexeme "\")\"") ([], first)

/-- A choice between cases, after `case`. -/
def readChoice (down : Deeper) (line : Nat) : Reading Command := do
  let between : Allowance := { newlines := true, reserved := true }
  match ← nextLexeme down {} with
  | .word subject =>
    expect down .all "in"
    let first ← nextLexeme down between
    let cases ← Reading.run (fun (cases, lexeme) => do
      match lexeme with
      | Lexeme.reserved "esac" => return .inr cases
      | lexeme =>
        let patterns ← readPatterns down lexeme
        let body ← down.list .inner
        let cases := cases ++ [(patterns, body)]
        match ← nextLexeme down between with
        | .reserved "esac" => return .inr cases
        | .caseEnd => return .inl (cases, ← nextLexeme down between)
        | lexeme => unexpectedFor lexeme "\";;\"") ([], first)
    return .choice line subject cases
  | lexeme => unexpectedFor lexeme "word"

/-- The redirections after a compound command. -/
def readRedirects (down : Deeper) : Reading (List Redirect) :=
  Reading.run (fun rs => do
    match ← nextLexeme down { reserved := true, aliases := true } with
    | .arrow descriptor kind => return .inl (rs ++ [← readRedirect down descriptor kind])
    | lexeme =>
      pushLexeme lexeme
      return .inr rs) []

/-- A compound command with the redirections after it. -/
def withRedirects (down : Deeper) (line : Nat) (c : Command) : Reading Command := do
  match ← readRedirects down with
  | [] => return c
  | rs =>
    match c with
    | .subshell line body _ => return .subshell line body rs
    | c => return .redirected line c rs

/-- A command. -/
def readCommand (down : Deeper) (a : Allowance) : Reading Command := do
  let line := (← get).line
  match ← nextLexeme down a with
  | .reserved "if" =>
    let (branches, otherwise) ← readBranches down
    withRedirects down line ((branchCommand branches otherwise).getD .nothing)
  | .reserved "while" =>
    let condition ← readBody down "do"
    withRedirects down line (.loop false condition (← readBody down "done"))
  | .reserved "until" =>
    let condition ← readBody down "do"
    withRedirects down line (.loop true condition (← readBody down "done"))
  | .reserved "for" => withRedirects down line (← readEach down line)
  | .reserved "case" => withRedirects down line (← readChoice down line)
  | .reserved "\x7b" => withRedirects down line (← readBody down "\x7d")
  | .opening =>
    let body ← down.list .compound
    match ← nextLexeme down {} with
    | .closing => withRedirects down line (.subshell line (body.getD .nothing) [])
    | lexeme => unexpectedFor lexeme "\")\""
  | .word w =>
    pushLexeme (.word w)
    readSimple down
  | .arrow descriptor kind =>
    pushLexeme (.arrow descriptor kind)
    readSimple down
  | lexeme => unexpected lexeme

/-! ### Lists -/

/-- Commands joined by bars, negated if an exclamation mark stands first. -/
def readPipeline (down : Deeper) (a : Allowance) : Reading Command := do
  let first ← nextLexeme down a
  let negated := match first with
    | .reserved "!" => true
    | _ => false
  if !negated then pushLexeme first
  let c ← readCommand down (if negated then { reserved := true, aliases := true } else a)
  let cs ← Reading.run (fun cs => do
    match ← nextLexeme down {} with
    | .bar => return .inl (cs ++ [← readCommand down .all])
    | lexeme =>
      pushLexeme lexeme
      return .inr cs) [c]
  let c := if cs.length = 1 then c else .pipeline cs true
  return if negated then .negated c else c

/-- Pipelines joined by `&&` and `||`. -/
def readJoined (down : Deeper) (a : Allowance) : Reading Command := do
  let first ← readPipeline down a
  Reading.run (fun c => do
    match ← nextLexeme down {} with
    | .both => return .inl (Command.both c (← readPipeline down .all))
    | .either => return .inl (.either c (← readPipeline down .all))
    | lexeme =>
      pushLexeme lexeme
      return .inr c) first

/-- A command that is not waited for. -/
def inBackground : Command → Command
  | .pipeline cs _ => .pipeline cs false
  | .redirected line body rs => .background line body rs
  | c => .background 0 c []

/-- Whether a lexeme ends a list. -/
def Lexeme.closes : Lexeme → Bool
  | .ending => true
  | .closing => true
  | .caseEnd => true
  | .reserved name =>
    ["do", "done", "elif", "else", "esac", "fi", "then", "\x7d"].contains name
  | _ => false

/-- A step in reading a list of commands: those read so far, or all of them. -/
def listStep (down : Deeper) (extent : Extent) (read : Option Command) :
    Reading (Option Command ⊕ Option Command) := do
  let a : Allowance := { newlines := extent ≠ .line, reserved := true, aliases := true }
  match ← nextLexeme down a with
  | .newline => return .inr read
  | .ending =>
    pushLexeme .ending
    return .inr read
  | lexeme =>
    pushLexeme lexeme
    let mayEnd : Bool := match extent with
      | .line => false
      | .compound => read.isSome
      | .inner => true
    if mayEnd ∧ lexeme.closes then return .inr read
    else
      let c ← readJoined down {}
      let after ← nextLexeme down {}
      let c := match after with
        | .ampersand => inBackground c
        | _ => c
      let read := match read with
        | some before => Command.sequence before c
        | none => c
      match after with
      | .ending =>
        pushLexeme .ending
        return .inr (some read)
      | .newline =>
        pushLexeme .newline
        return .inl (some read)
      | .semicolon => return .inl (some read)
      | .ampersand => return .inl (some read)
      | lexeme =>
        if extent = .line then unexpected lexeme
        else
          pushLexeme lexeme
          return .inr (some read)

/-- A list of commands. -/
def readList (down : Deeper) (extent : Extent) : Reading (Option Command) :=
  Reading.run (listStep down extent) none

/-- The commands of a substitution, and the parenthesis that closes it. What was read too far and
the documents that the line names are left for after it. -/
def readEnclosed (down : Deeper) : Reading (Option Command) := do
  let s ← get
  set { s with pushed := none, awaited := [] }
  let body ← down.list .inner
  match ← nextLexeme down {} with
  | .closing =>
    modify fun t => { t with pushed := s.pushed, awaited := s.awaited }
    return body
  | lexeme => unexpectedFor lexeme "\")\""

/-! ### Levels -/

mutual

/-- The pieces of a word, at a level. -/
def piecesAt : Nat → Manner → Reading Word
  | 0, _ => fail "end of file unexpected"
  | n + 1, m => readPieces ⟨piecesAt n, listAt n, enclosedAt n, commandAt n⟩ m

/-- A list of commands, at a level. -/
def listAt : Nat → Extent → Reading (Option Command)
  | 0, _ => fail "end of file unexpected"
  | n + 1, extent => readList ⟨piecesAt n, listAt n, enclosedAt n, commandAt n⟩ extent

/-- The commands of a substitution, at a level. -/
def enclosedAt : Nat → Reading (Option Command)
  | 0 => fail "end of file unexpected"
  | n + 1 => readEnclosed ⟨piecesAt n, listAt n, enclosedAt n, commandAt n⟩

/-- A command, at a level. -/
def commandAt : Nat → Allowance → Reading Command
  | 0, _ => fail "end of file unexpected"
  | n + 1, a => readCommand ⟨piecesAt n, listAt n, enclosedAt n, commandAt n⟩ a

end

/-- What a line of a script comes to: the end of the script, or commands, if there are any, and what
to go on from. -/
inductive Line where
  | ending
  | commands (c : Option Command) (next : Source)

/-- Reads the next line. Nothing nests deeper than the text is long. -/
def readLine (s : Source) : Except ScriptFault Line :=
  let s := { s with pushed := none, awaited := [], documents := [] }
  match listAt (2 * s.rest.length + 4) .line s with
  | .error e => .error e
  | .ok (none, next) =>
    match next.pushed with
    | some .ending => .ok .ending
    | _ => .ok (.commands none next)
  | .ok (some c, next) => .ok (.commands (some c) next)

end Shell
end ImagePolicy
