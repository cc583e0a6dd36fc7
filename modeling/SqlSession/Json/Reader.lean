import SqlSession.Json.Token

/-!
# Reading JSON text

The reader goes through the tokens once and keeps the arrays and objects that are still open on a
stack, the innermost first.
-/

namespace SqlSession
namespace Json

/-- An array or object that is still open.  What it holds already is in reverse order. -/
inductive Frame where
  | array (items : List Json)
  | object (members : List (String × Json)) (name : String)

inductive Expect where
  | value
  /-- A value, or the end of the array that has just been opened. -/
  | firstItem
  /-- The name of a member, in an object with these members. -/
  | name (members : List (String × Json))
  /-- The name of a member, or the end of the object that has just been opened. -/
  | firstName
  /-- The colon after this name, in an object with these members. -/
  | colon (members : List (String × Json)) (name : String)
  /-- What follows a complete value: a comma, a closing bracket or the end of the text. -/
  | follow (v : Json)

/-- How many arrays and objects may be open at the same time. -/
def maxDepth : Nat := 127

namespace Expect

/-- Opens an array or object inside the open ones. -/
def deeper (stack : List Frame) (next : Expect) : Option (List Frame × Expect) :=
  if stack.length < maxDepth then some (stack, next) else none

def value? (stack : List Frame) : Token → Option (List Frame × Expect)
  | .openArray => deeper stack .firstItem
  | .openObject => deeper stack .firstName
  | .string s => some (stack, .follow (.string s))
  | .scalar v => some (stack, .follow v)
  | _ => none

/-- Reads one token.  An array or object that has been opened joins the stack with its first item
or member, so an expectation of these counts as one more open bracket. -/
def step (stack : List Frame) : Expect → Token → Option (List Frame × Expect)
  | value, t => value? stack t
  | firstItem, .closeArray => some (stack, .follow (.array []))
  | firstItem, t => value? (.array [] :: stack) t
  | firstName, .closeObject => some (stack, .follow (.object []))
  | firstName, .string s => some (stack, .colon [] s)
  | name members, .string s => some (stack, .colon members s)
  | colon members s, .colon => some (.object members s :: stack, .value)
  | follow v, t =>
    match stack, t with
    | .array items :: rest, .comma => some (.array (v :: items) :: rest, .value)
    | .array items :: rest, .closeArray => some (rest, .follow (.array (v :: items).reverse))
    | .object members s :: rest, .comma => some (rest, .name ((s, v) :: members))
    | .object members s :: rest, .closeObject =>
      some (rest, .follow (Json.ofMembers ((s, v) :: members).reverse))
    | _, _ => none
  | _, _ => none

end Expect

def ofTokens? (tokens : List Token) : Option Json :=
  match tokens.foldlM (fun (stack, expect) t => Expect.step stack expect t) ([], .value) with
  | some ([], .follow v) => some v
  | _ => none

/-- The value of a text.  Nothing but blanks may stand around it. -/
def read? (s : String) : Option Json :=
  Token.ofText? s >>= ofTokens?

end Json
end SqlSession
