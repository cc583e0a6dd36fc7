import SqlSession.Value.Basic

/-!
# What a value can be read as

A caller asks for a column as one of these targets.  The carrier of a target is the type of what
comes back.
-/

namespace SqlSession

inductive Target
  | int64
  | int32
  | int16
  | uint32
  | binary64
  | binary32
  | bool
  | text
  | timestamp
  | date
  | bytes
  | json
  | value
deriving DecidableEq, Repr

namespace Target

def Carrier : Target → Type
  | int64 => Int64
  | int32 => Int32
  | int16 => Int16
  | uint32 => UInt32
  | binary64 => Binary64
  | binary32 => Binary32
  | bool => Bool
  | text => String
  | timestamp => Timestamp
  | date => Date
  | bytes => ByteArray
  | json => Json
  | value => Value

/-- The target as messages name it.  Every value can be read as a value, so that one is in no
message. -/
def label : Target → String
  | int64 => "i64"
  | int32 => "i32"
  | int16 => "i16"
  | uint32 => "u32"
  | binary64 => "f64"
  | binary32 => "f32"
  | bool => "bool"
  | text => "String"
  | timestamp => "NaiveDateTime"
  | date => "NaiveDate"
  | bytes => "Vec<u8>"
  | json => "serde_json::Value"
  | value => "value"

end Target
end SqlSession
