/-
# Writing JSON

The text of a value, on one line without blanks or indented by two blanks a level. Of the characters
of a string only the quote, the backslash and the controls below the blank are escaped.

Key definitions: `Json.render`, `Json.renderIndented`, `Json.renderText`.
-/
import ImagePolicy.Json.Value

namespace ImagePolicy
namespace Json

/-- A character inside a string. -/
def renderChar (c : Char) : List Char :=
  if c = '"' then ['\\', '"']
  else if c = '\\' then ['\\', '\\']
  else if c = '\n' then ['\\', 'n']
  else if c = '\r' then ['\\', 'r']
  else if c = '\t' then ['\\', 't']
  else if c = '\x08' then ['\\', 'b']
  else if c = '\x0c' then ['\\', 'f']
  else if c.toNat < 0x20 then
    ['\\', 'u', '0', '0', Text.hexChar (c.toNat / 16), Text.hexChar (c.toNat % 16)]
  else [c]

/-- A string with its quotes. -/
def renderText (s : String) : List Char :=
  '"' :: s.toList.flatMap renderChar ++ ['"']

mutual

/-- The text of a value on one line. -/
def render : Value → List Char
  | .null => "null".toList
  | .bool b => if b then "true".toList else "false".toList
  | .number n => n.render
  | .text s => renderText s
  | .list [] => ['[', ']']
  | .list (v :: vs) => '[' :: render v ++ renderItems vs
  | .object [] => ['\x7b', '\x7d']
  | .object ((k, v) :: ms) => '\x7b' :: renderText k ++ ':' :: render v ++ renderMembers ms

/-- The items after the first, and the end of the list. -/
def renderItems : List Value → List Char
  | [] => [']']
  | v :: vs => ',' :: render v ++ renderItems vs

/-- The members after the first, and the end of the object. -/
def renderMembers : Members → List Char
  | [] => ['\x7d']
  | (k, v) :: ms => ',' :: renderText k ++ ':' :: render v ++ renderMembers ms

end

/-- A line break and the blanks of a level. -/
def newline (level : Nat) : List Char :=
  '\n' :: List.replicate (2 * level) ' '

mutual

/-- The indented text of a value that stands at a level. -/
def renderAt (level : Nat) : Value → List Char
  | .list (v :: vs) =>
    '[' :: newline (level + 1) ++ renderAt (level + 1) v ++ renderItemsAt level vs
  | .object ((k, v) :: ms) =>
    '\x7b' :: newline (level + 1) ++ renderText k ++ ':' :: ' ' :: renderAt (level + 1) v ++
      renderMembersAt level ms
  | .list [] => ['[', ']']
  | .object [] => ['\x7b', '\x7d']
  | .null => render .null
  | .bool b => render (.bool b)
  | .number n => render (.number n)
  | .text s => render (.text s)

/-- The items after the first of a list that stands at a level, and its end. -/
def renderItemsAt (level : Nat) : List Value → List Char
  | [] => newline level ++ [']']
  | v :: vs => ',' :: newline (level + 1) ++ renderAt (level + 1) v ++ renderItemsAt level vs

/-- The members after the first of an object that stands at a level, and its end. -/
def renderMembersAt (level : Nat) : Members → List Char
  | [] => newline level ++ ['\x7d']
  | (k, v) :: ms =>
    ',' :: newline (level + 1) ++ renderText k ++ ':' :: ' ' :: renderAt (level + 1) v ++
      renderMembersAt level ms

end

/-- The indented text of a value. -/
def renderIndented (v : Value) : List Char :=
  renderAt 0 v

end Json
end ImagePolicy
