import SqlSession.Json.Basic
import SqlSession.Number.Layout

/-!
# JSON text of a value

The text has no blanks.  In a string only the quote, the backslash and the control characters are
escaped.
-/

namespace SqlSession
namespace Json

/-- One character of a string as it is written between the quotes. -/
def escape (c : Char) : List Char :=
  match c with
  | '"' => ['\\', '"']
  | '\\' => ['\\', '\\']
  | '\x08' => ['\\', 'b']
  | '\x0c' => ['\\', 'f']
  | '\n' => ['\\', 'n']
  | '\r' => ['\\', 'r']
  | '\t' => ['\\', 't']
  | c =>
    if c.toNat < 0x20 then
      ['\\', 'u', '0', '0', Nat.digitChar (c.toNat / 16), Nat.digitChar (c.toNat % 16)]
    else [c]

/-- A string with its quotes. -/
def quote (s : String) : List Char :=
  '"' :: (s.toList.flatMap escape ++ ['"'])

mutual

def render : Json → List Char
  | null => ['n', 'u', 'l', 'l']
  | bool true => ['t', 'r', 'u', 'e']
  | bool false => ['f', 'a', 'l', 's', 'e']
  | integer n => (toString n).toList
  | float x => x.jsonText
  | string s => quote s
  | array [] => ['[', ']']
  | array (x :: xs) => '[' :: (x.render ++ renderItems xs)
  | object [] => ['{', '}']
  | object ((k, x) :: xs) => '{' :: (quote k ++ ':' :: (x.render ++ renderMembers xs))

/-- The items after the first one and the closing bracket. -/
def renderItems : List Json → List Char
  | [] => [']']
  | x :: xs => ',' :: (x.render ++ renderItems xs)

/-- The members after the first one and the closing brace. -/
def renderMembers : List (String × Json) → List Char
  | [] => ['}']
  | (k, x) :: xs => ',' :: (quote k ++ ':' :: (x.render ++ renderMembers xs))

end

/-- The text of a value. -/
def text (v : Json) : String := String.ofList v.render

end Json
end SqlSession
