import SqlSession.Engine.Native

/-!
# Tables, rows and values of an engine

A row is fetched into buffers of the caller, one for the datums and one for the null flags.  Values
go to the engine and come back as datums.
-/

namespace SqlSession

structure RowBuffer where
  datums : List Datum
  nulls : List Bool
deriving DecidableEq

namespace RowBuffer

/-- Buffers for a row of so many columns, with null datums that are not flagged as null. -/
def blank (columns : Nat) : RowBuffer :=
  ⟨List.replicate columns Datum.null, List.replicate columns false⟩

/-- Writes cells over the buffers from their start.  Cells beyond the end of a buffer are dropped,
and what lies beyond the cells stays as it was. -/
def overwrite : List (Option Datum) → RowBuffer → RowBuffer
  | cell :: cells, ⟨_ :: datums, _ :: nulls⟩ =>
    let rest := overwrite cells ⟨datums, nulls⟩
    ⟨cell.getD Datum.null :: rest.datums, cell.isNone :: rest.nulls⟩
  | _, buffer => buffer

/-- The datum of a column and whether it is flagged as null. -/
def cell? (b : RowBuffer) (i : Nat) : Option (Datum × Bool) := do
  return (← b.datums[i]?, ← b.nulls[i]?)

theorem overwrite_nil (b : RowBuffer) : overwrite [] b = b := by
  cases b; rfl

end RowBuffer

namespace Engine

/-- The columns of a table, which are none if there is no such table. -/
def columns (e : Engine) (t : TableHandle) : List Column :=
  match e.tables[t.index]? with
  | some table => table.columns
  | none => []

def columnCount (e : Engine) (t : TableHandle) : Nat := (e.columns t).length

/-- The columns that the engine describes. -/
def describedColumns (e : Engine) (t : TableHandle) : List Column :=
  match e.faults.described with
  | some limit => (e.columns t).take limit
  | none => e.columns t

def rowType (_ : TableHandle) : Oid := Oid.record

def fetchRow (e : Engine) (index : Nat) (t : TableHandle) (b : RowBuffer) :
    Except Error RowBuffer :=
  if e.faults.fetch = some index then .error (.state (.fetch index))
  else match e.tables[t.index]?.bind (·.rows[index]?) with
    | some cells => .ok (b.overwrite cells)
    | none => .error (.range (.row index t.index))

/-- Whether a value fits a type.  Only integers and booleans are checked. -/
def fits (type : Oid) (v : Value) : Bool :=
  if type = Oid.int2 then v.int?.any (within Int16.minValue.toInt Int16.maxValue.toInt)
  else if type = Oid.int4 then v.int?.any (within Int32.minValue.toInt Int32.maxValue.toInt)
  else if type = Oid.int8 ∨ type = Oid.oid then v.int?.isSome
  else if type = Oid.bool then v.bool?.isSome
  else true
where
  within (low high : Int) (i : Int64) : Bool := low ≤ i.toInt && i.toInt ≤ high

def encode (type : Oid) (v : Value) : EStateM Error Engine Datum := fun e =>
  if fits type v then
    let (d, values) := store v e.values
    .ok d { e with values }
  else .error (.binding (.unencodable v.kind type)) e

def decode (e : Engine) (d : Datum) (type : Oid) : Except Error Value :=
  if e.faults.decode = some type then .error (.state (.decode type))
  else match e.value? d with
    | some v => .ok v
    | none => .error (.state (.deadDatum d.index))

end Engine
end SqlSession
