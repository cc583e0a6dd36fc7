import SqlSession.Catalog.TypeMap
import SqlSession.Engine.Basic

/-!
# The type catalog of an engine

The types of an engine are the answer to one query with six columns: the schema, the identifier,
the name, the kind, a flag that is not used, and the element of an array.
-/

namespace SqlSession
namespace Catalog

/-- The query for all types.  It sorts arrays behind their elements. -/
def query : String :=
  "SELECT ns.nspname, t.oid, t.typname, t.typtype, t.typnotnull, " ++
  "CASE WHEN t.typtype = 'a' THEN t.typelem END AS elemtypoid " ++
  "FROM pg_catalog.pg_type AS t " ++
  "JOIN pg_catalog.pg_namespace AS ns ON ns.oid = t.typnamespace " ++
  "ORDER BY CASE WHEN t.typtype IN ('b', 'e', 'p') THEN 0 WHEN t.typtype = 'r' THEN 1 " ++
  "WHEN t.typtype = 'm' THEN 2 WHEN t.typtype = 'c' THEN 3 WHEN t.typtype = 'd' THEN 4 " ++
  "WHEN t.typtype = 'a' THEN 5 ELSE 6 END, t.oid"

/-- The columns of the answer. -/
def columns : List Column :=
  [ Column.ofType "nspname" Oid.name Facets.undeclared,
    Column.ofType "oid" Oid.oid Facets.undeclared,
    Column.ofType "typname" Oid.name Facets.undeclared,
    Column.ofType "typtype" Oid.char Facets.undeclared,
    Column.ofType "typnotnull" Oid.bool Facets.undeclared,
    Column.ofType "elemtypoid" Oid.oid Facets.undeclared ]

def oidValue (oid : Oid) : Value := .int (Int64.ofNat oid.toNat)

/-- The cells of a type. -/
def cells (row : CatalogRow) : List Value :=
  [ .text row.identity.schema,
    oidValue row.identity.oid,
    .text row.identity.name,
    .text (String.singleton row.kind),
    .bool false,
    (row.element.map oidValue).getD .null ]

/-- A type of the system schema. -/
def builtIn (kind : Char) (oid : Oid) (name : String) : CatalogRow :=
  ⟨⟨TypeDescriptor.systemSchema, name, oid⟩, kind, none⟩

/-- The types that an engine has from the start. -/
def builtInTypes : List CatalogRow :=
  [ builtIn 'b' Oid.bool "bool",
    builtIn 'b' Oid.bytea "bytea",
    builtIn 'b' Oid.char "char",
    builtIn 'b' Oid.name "name",
    builtIn 'b' Oid.int8 "int8",
    builtIn 'b' Oid.int2 "int2",
    builtIn 'b' Oid.int4 "int4",
    builtIn 'b' Oid.text "text",
    builtIn 'b' Oid.oid "oid",
    builtIn 'b' Oid.json "json",
    builtIn 'b' Oid.float4 "float4",
    builtIn 'b' Oid.float8 "float8",
    builtIn 'b' Oid.bpchar "bpchar",
    builtIn 'b' Oid.varchar "varchar",
    builtIn 'b' Oid.date "date",
    builtIn 'b' Oid.time "time",
    builtIn 'b' Oid.timestamp "timestamp",
    builtIn 'b' Oid.timestamptz "timestamptz",
    builtIn 'b' Oid.interval "interval",
    builtIn 'b' Oid.timetz "timetz",
    builtIn 'b' Oid.bit "bit",
    builtIn 'b' Oid.varbit "varbit",
    builtIn 'b' Oid.numeric "numeric",
    builtIn 'b' Oid.jsonb "jsonb",
    builtIn 'p' Oid.unknown "unknown",
    builtIn 'p' Oid.record "record",
    builtIn 'p' Oid.void "void",
    builtIn 'r' Oid.int4range "int4range",
    { builtIn 'a' Oid.int4Array "_int4" with element := some Oid.int4 },
    { builtIn 'a' Oid.textArray "_text" with element := some Oid.text } ]

/-- The rows of the built-in types. -/
def builtInRows : List (List Value) := builtInTypes.map cells

end Catalog

namespace Engine

/-- Answers the catalog query with these rows. -/
def withCatalog (e : Engine) (rows : List (List Value)) : Engine :=
  e.answerWith Catalog.query (.rows Catalog.columns rows)

/-- An engine that has done nothing yet.  It knows the built-in types and the query for one. -/
def initial : Engine :=
  let bare : Engine :=
    { script := [], plans := #[], tables := #[], values := #[], records := #[], releases := #[]
      rowCount := 0, version := "16.2", calls := #[], faults := {} }
  let one : Response := .rows [Column.ofType "?column?" Oid.int4 Facets.undeclared] [[.int 1]]
  (bare.answerWith "SELECT 1" one).withCatalog Catalog.builtInRows

end Engine
end SqlSession
