import SqlSession.Engine.Catalog
import SqlSession.Engine.Request

/-!
# The registry of types

A registry loads the types of an engine when the first of them is asked for, and never again once
that has succeeded.  After a failure it is as empty as before.
-/

namespace SqlSession
namespace Catalog

def textIn (column : Nat) (v : Value) : Except Error String :=
  match v with
  | .text s => .ok s
  | v => .error (.state (.catalog (.notText column v.kind)))

/-- An identifier in a column of the catalog, where it is a number or the text of one, or null. -/
def oidIn (column : Nat) (v : Value) : Except Error (Option Oid) :=
  let read (result : Except NumberFault Oid) : Except Error (Option Oid) :=
    match result with
    | .ok oid => .ok (some oid)
    | .error reason => .error (.state (.catalog (.badOid column reason)))
  match v with
  | .null => .ok none
  | .int i => read (Unsigned.narrow i)
  | .text s => read (Unsigned.read s)
  | v => .error (.state (.catalog (.notOid column v.kind)))

/-- The type that a row of the catalog describes.  The kind is looked at first, then the other
columns from left to right. -/
def rowOfCells (schema oid name kind element : Value) : Except Error CatalogRow := do
  let kind ← match (← textIn 3 kind).toList with
    | c :: _ => pure c
    | [] => .error (.state (.catalog .emptyKind))
  let schema ← textIn 0 schema
  let oid ← match ← oidIn 1 oid with
    | some oid => pure oid
    | none => .error (.state (.catalog .nullOid))
  let name ← textIn 2 name
  let element ← oidIn 5 element
  return ⟨⟨schema, name, oid⟩, kind, element⟩

/-- The value in a column of a fetched row. -/
def cell (e : Engine) (described : List Column) (b : RowBuffer) (i : Nat) : Except Error Value :=
  match b.cell? i with
  | some (d, false) => e.decode d (described[i]?.getD Column.undescribed).type
  | _ => .ok .null

/-- The types in so many rows of the answer to the catalog query, from a position on.  All rows
share the buffers. -/
def readRows (e : Engine) (t : TableHandle) : Nat → Nat → RowBuffer → Except Error (List CatalogRow)
  | 0, _, _ => .ok []
  | count + 1, index, b => do
    let b ← e.fetchRow index t b
    let column := cell e (e.describedColumns t) b
    let schema ← column 0
    let oid ← column 1
    let name ← column 2
    let kind ← column 3
    let _ ← column 4
    let element ← column 5
    let row ← rowOfCells schema oid name kind element
    let rest ← readRows e t count (index + 1) b
    return row :: rest

def readTable (e : Engine) (outcome : Outcome) : Except Error (List CatalogRow) :=
  match outcome.table with
  | none => .error (.state (.catalog .noTable))
  | some t =>
    let count := e.columnCount t
    if count < CatalogFault.expectedColumns then .error (.state (.catalog (.columns count)))
    else readRows e t outcome.processed 0 (RowBuffer.blank count)

def load : EngineM TypeMap := do
  let outcome ← Request.execute query true
  let rows ← ofExcept (readTable (← get) outcome)
  ofExcept (TypeMap.ofRows rows)

end Catalog

/-- The types of an engine, if they have been loaded. -/
structure Registry where
  types : Option TypeMap := none

namespace Registry

def isLoaded (r : Registry) : Bool := r.types.isSome

def size (r : Registry) : Nat := (r.types.getD []).length

def lookup? (r : Registry) (oid : Oid) : Option TypeDescriptor :=
  r.types.bind fun m => m.find? oid

def loaded (r : Registry) : EngineM Registry :=
  if r.isLoaded then pure r
  else do
    let types ← Catalog.load
    return { types := some types }

/-- Loads the types.  A failure leaves the registry as it is. -/
def ensureLoaded : EStateM Error (Registry × Engine) Unit := fun (r, e) =>
  match r.loaded e with
  | .ok r e => .ok () (r, e)
  | .error err e => .error err (r, e)

/-- The type with this identifier, after the types have been loaded if it is not there yet. -/
def resolve (oid : Oid) : EStateM Error (Registry × Engine) TypeDescriptor := do
  match (← get).1.lookup? oid with
  | some t => return t
  | none =>
    ensureLoaded
    match (← get).1.lookup? oid with
    | some t => return t
    | none => throw (.unknownType oid)

end Registry
end SqlSession
