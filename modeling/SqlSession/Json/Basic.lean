import SqlSession.Number.Binary
import SqlSession.Keyed

/-!
# JSON values

Integers and floats are different numbers, so `1` is not equal to `1.0`.  The members of an object
are kept in the order of their names, which is the order in which they are written.
-/

namespace SqlSession

inductive Json where
  | null
  | bool (b : Bool)
  /-- An integer from `-2 ^ 63` to `2 ^ 64 - 1`. -/
  | integer (n : Int)
  /-- A finite float. -/
  | float (x : Binary64)
  | string (s : String)
  | array (items : List Json)
  | object (members : List (String × Json))

namespace Json

/-- The object with these members, in which a repeated name keeps its last value. -/
def ofMembers (members : List (String × Json)) : Json :=
  .object (Keyed.ofList members)

mutual

/-- Equality of values, floats being compared on the number line. -/
def equal : Json → Json → Bool
  | null, null => true
  | bool a, bool b => a == b
  | integer a, integer b => a == b
  | float a, float b => a.equal b
  | string a, string b => a == b
  | array xs, array ys => equalItems xs ys
  | object xs, object ys => equalMembers xs ys
  | _, _ => false

def equalItems : List Json → List Json → Bool
  | [], [] => true
  | x :: xs, y :: ys => x.equal y && equalItems xs ys
  | _, _ => false

def equalMembers : List (String × Json) → List (String × Json) → Bool
  | [], [] => true
  | (k, x) :: xs, (l, y) :: ys => k == l && x.equal y && equalMembers xs ys
  | _, _ => false

end

end Json
end SqlSession
