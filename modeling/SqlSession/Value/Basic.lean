import SqlSession.Calendar
import SqlSession.Json.Basic
import SqlSession.Oid

/-!
# Column and parameter values

A value is what a cell of a row holds and what a parameter carries.  The SQL null is a value of its
own kind.
-/

namespace SqlSession

inductive Kind
  | integer
  | float
  | text
  | boolean
  | timestamp
  | date
  | null
  | json
  | bytes
deriving DecidableEq, Repr

namespace Kind

/-- The kind as messages name it. -/
def label : Kind → String
  | integer => "integer"
  | float => "float"
  | text => "text"
  | boolean => "boolean"
  | timestamp => "timestamp"
  | date => "date"
  | null => "null"
  | json => "json"
  | bytes => "bytea"

/-- The type that a parameter without a declared type gets. -/
def inferredOid : Kind → Oid
  | integer => Oid.int8
  | float => Oid.float8
  | text => Oid.text
  | boolean => Oid.bool
  | timestamp => Oid.timestamp
  | date => Oid.date
  | null => Oid.unknown
  | json => Oid.jsonb
  | bytes => Oid.bytea

end Kind

inductive Value
  | int (v : Int64)
  | float (v : Binary64)
  | text (v : String)
  | bool (v : Bool)
  | timestamp (v : Timestamp)
  | date (v : Date)
  | null
  | json (v : Json)
  | bytes (v : ByteArray)

namespace Value

instance : Inhabited Value := ⟨null⟩

def kind : Value → Kind
  | int _ => .integer
  | float _ => .float
  | text _ => .text
  | bool _ => .boolean
  | timestamp _ => .timestamp
  | date _ => .date
  | null => .null
  | json _ => .json
  | bytes _ => .bytes

def isNull : Value → Bool
  | null => true
  | _ => false

/-- Equality of values, numbers being compared on the number line.  It is not reflexive, because a
float that is no number equals nothing. -/
def equal : Value → Value → Bool
  | int a, int b => a == b
  | float a, float b => a.equal b
  | text a, text b => a == b
  | bool a, bool b => a == b
  | timestamp a, timestamp b => a == b
  | date a, date b => a == b
  | null, null => true
  | json a, json b => a.equal b
  | bytes a, bytes b => a == b
  | _, _ => false

def int? : Value → Option Int64
  | int v => some v
  | _ => none

def text? : Value → Option String
  | text v => some v
  | _ => none

def bool? : Value → Option Bool
  | bool v => some v
  | _ => none

def float? : Value → Option Binary64
  | float v => some v
  | _ => none

def bytes? : Value → Option ByteArray
  | bytes v => some v
  | _ => none

theorem isNull_iff {v : Value} : v.isNull = true ↔ v = null := by
  cases v <;> simp [isNull]

end Value
end SqlSession
