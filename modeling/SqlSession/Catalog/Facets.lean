/-!
# SQL names of types and their facets

A column carries a type modifier, a number in which its declared length or precision is packed.
The SQL name of the type shows what was declared.
-/

namespace SqlSession
namespace Facets

/-- The SQL name of a type with this internal name. -/
def sqlName (internal : String) : String :=
  match internal with
  | "bool" => "boolean"
  | "char" => "\"char\""
  | "bpchar" => "character"
  | "decimal" => "numeric"
  | "float4" => "real"
  | "float8" => "double precision"
  | "int2" => "smallint"
  | "int4" => "integer"
  | "int8" => "bigint"
  | "time" => "time without time zone"
  | "timestamp" => "timestamp without time zone"
  | "timetz" => "time with time zone"
  | "timestamptz" => "timestamp with time zone"
  | "varbit" => "bit varying"
  | "varchar" => "character varying"
  | other => other

/-- The modifier of a column without declared facets. -/
def undeclared : Int32 := -1

/-- Types that carry a length add the size of the length word to it. -/
def lengthWord : Int := 4

/-- The high half of a modifier as an unsigned number. -/
def highHalf (m : Int) : Int := m / 65536 % 65536

/-- The low half of a modifier as an unsigned number. -/
def lowHalf (m : Int) : Int := m % 65536

/-- An interval whose low half has all bits set was declared without a precision. -/
def noPrecision : Int := 65535

/-- The SQL name of a type with the facets in the modifier. -/
def sqlNameWith (internal : String) (modifier : Int32) : String :=
  let m := modifier.toInt
  if modifier = undeclared then sqlName internal
  else match internal with
    | "bpchar" => s!"character({m - lengthWord})"
    | "varchar" => s!"character varying({m - lengthWord})"
    | "numeric" | "decimal" => s!"numeric({highHalf (m - lengthWord)},{lowHalf (m - lengthWord)})"
    | "timestamp" => s!"timestamp({m}) without time zone"
    | "timestamptz" => s!"timestamp({m}) with time zone"
    | "time" => s!"time({m}) without time zone"
    | "timetz" => s!"time({m}) with time zone"
    | "interval" => if lowHalf m = noPrecision then "interval" else s!"interval({lowHalf m})"
    | "bit" => s!"bit({m})"
    | "varbit" => s!"bit varying({m})"
    | other => sqlName other

end Facets
end SqlSession
