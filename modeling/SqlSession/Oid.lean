/-!
# Object identifiers of types

The engine names a type by an unsigned number of 32 bits.  The identifiers of the built-in types
are fixed.
-/

namespace SqlSession

abbrev Oid := UInt32

namespace Oid

def bool : Oid := 16
def bytea : Oid := 17
def char : Oid := 18
def name : Oid := 19
def int8 : Oid := 20
def int2 : Oid := 21
def int4 : Oid := 23
def text : Oid := 25
def oid : Oid := 26
def json : Oid := 114
def float4 : Oid := 700
def float8 : Oid := 701
def unknown : Oid := 705
def int4Array : Oid := 1007
def textArray : Oid := 1009
def bpchar : Oid := 1042
def varchar : Oid := 1043
def date : Oid := 1082
def time : Oid := 1083
def timestamp : Oid := 1114
def timestamptz : Oid := 1184
def interval : Oid := 1186
def timetz : Oid := 1266
def bit : Oid := 1560
def varbit : Oid := 1562
def numeric : Oid := 1700
def record : Oid := 2249
def void : Oid := 2278
def jsonb : Oid := 3802
def int4range : Oid := 3904

end Oid

/-- The types that a parameter can be declared with. -/
inductive SqlType
  | smallint
  | integer
  | bigint
  | real
  | double
  | numeric
  | boolean
  | text
  | varchar
  | char
  | name
  | bytea
  | date
  | timestamp
  | timestamptz
  | json
  | jsonb
  | oid
  | unknown
deriving DecidableEq, Repr

namespace SqlType

/-- The type `char` of a declaration is the blank-padded one, not the type of a single byte. -/
def toOid : SqlType → Oid
  | smallint => Oid.int2
  | integer => Oid.int4
  | bigint => Oid.int8
  | real => Oid.float4
  | double => Oid.float8
  | numeric => Oid.numeric
  | boolean => Oid.bool
  | text => Oid.text
  | varchar => Oid.varchar
  | char => Oid.bpchar
  | name => Oid.name
  | bytea => Oid.bytea
  | date => Oid.date
  | timestamp => Oid.timestamp
  | timestamptz => Oid.timestamptz
  | json => Oid.json
  | jsonb => Oid.jsonb
  | oid => Oid.oid
  | unknown => Oid.unknown

end SqlType
end SqlSession
