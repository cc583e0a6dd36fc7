import SqlSession.Error
import SqlSession.Text.Blank

/-!
# Names of savepoints

A name that is an unquoted identifier in lower case is written as it is.  Every other name is
quoted, with its own quotes doubled, so that no two names are the same savepoint.
-/

namespace SqlSession
namespace Savepoint

/-- Whether a character can start an identifier that needs no quotes. -/
def isPlainStart (c : Char) : Bool := c.isLower || c == '_'

/-- Whether a character can stand in an identifier that needs no quotes. -/
def isPlainChar (c : Char) : Bool := isPlainStart c || c.isDigit || c == '$'

/-- Whether a name needs no quotes. -/
def isPlain (name : List Char) : Bool :=
  match name with
  | [] => false
  | c :: rest => isPlainStart c && rest.all isPlainChar

/-- The characters of a name between its quotes. -/
def doubleQuotes (name : List Char) : List Char :=
  name.flatMap fun c => if c = '"' then ['"', '"'] else [c]

/-- A name as SQL writes it. -/
def quote (name : String) : Except Error String :=
  if Text.allBlank name then .error (.argument .blankSavepoint)
  else if isPlain name.toList then .ok name
  else .ok (String.ofList ('"' :: (doubleQuotes name.toList ++ ['"'])))

end Savepoint
end SqlSession
