import SqlSession.Error
import SqlSession.Json.Printer
import SqlSession.Json.Reader

/-!
# Reading values as targets

A value is read as a target only if nothing is lost: an integer has to fit, and it becomes a float
only if it is one.  The one exception is a float of 32 bits, which is the nearest one.
-/

namespace SqlSession
namespace Value

/-- The error of a value of the wrong kind. -/
def mismatch (v : Value) (target : Target) : Error :=
  .cast (if v.isNull then .null target else .mismatch v.kind target)

/-- An integer between two bounds. -/
def within (low high : Int) (target : Target) (v : Int64) : Except Error Int64 :=
  if low ≤ v.toInt ∧ v.toInt ≤ high then .ok v else .error (.cast (.outOfRange v target))

/-- The value as the target, or why it is none. -/
def as (target : Target) (v : Value) : Except Error target.Carrier :=
  match target, v with
  | .value, v => .ok v
  | .int64, int i => .ok i
  | .int32, int i => Int64.toInt32 <$> within Int32.minValue.toInt Int32.maxValue.toInt .int32 i
  | .int16, int i => Int64.toInt16 <$> within Int16.minValue.toInt Int16.maxValue.toInt .int16 i
  | .uint32, int i => (fun i => UInt32.ofNat i.toInt.toNat) <$> within 0 0xFFFFFFFF .uint32 i
  | .binary64, float x => .ok x
  | .binary64, int i =>
    match Binary64.ofInt64? i with
    | some x => .ok x
    | none => .error (.cast (.inexact i))
  | .binary32, float x =>
    match x.narrow? with
    | some y => .ok y
    | none => .error (.cast (.overflow x))
  | .bool, bool b => .ok b
  | .text, text s => .ok s
  | .text, json j => .ok j.text
  | .timestamp, timestamp t => .ok t
  | .timestamp, date d => .ok d.midnight
  | .date, date d => .ok d
  | .date, timestamp t => .ok t.date
  | .bytes, bytes b => .ok b
  | .json, json j => .ok j
  | .json, text s =>
    match Json.read? s with
    | some j => .ok j
    | none => .error (.cast .invalidJson)
  | target, v => .error (v.mismatch target)

/-- The value as the target, or nothing if it is null. -/
def asOptional (target : Target) (v : Value) : Except Error (Option target.Carrier) :=
  if v.isNull then .ok none else some <$> v.as target

end Value
end SqlSession
