import SqlSession.Catalog.Descriptor
import SqlSession.Error
import SqlSession.Text.Blank

/-!
# The scripted engine

The engine answers each query from a script.  What it hands out are handles: numbers under which it
keeps plans, tables, values and error records.  It keeps them for ever, so a handle never comes to
mean something else.

The handle zero of a datum is the null datum, and the values of all others are kept from one on.
-/

namespace SqlSession

structure PlanHandle where
  index : Nat
deriving DecidableEq, Repr

structure TableHandle where
  index : Nat
deriving DecidableEq, Repr

structure RecordHandle where
  index : Nat
deriving DecidableEq, Repr

structure Datum where
  index : Nat
deriving DecidableEq, Repr

namespace Datum

def null : Datum := ⟨0⟩

end Datum

structure Column where
  name : String
  type : Oid
  modifier : Int32
  size : Int16
deriving DecidableEq, Repr

namespace Column

/-- How many bytes a value of the type takes, and minus one if that depends on the value. -/
def sizeOfType (type : Oid) : Int16 :=
  if type ∈ [Oid.bool, Oid.char] then 1
  else if type ∈ [Oid.int2] then 2
  else if type ∈ [Oid.int4, Oid.oid, Oid.float4, Oid.date] then 4
  else if type ∈ [Oid.int8, Oid.float8, Oid.timestamp, Oid.timestamptz, Oid.time] then 8
  else if type ∈ [Oid.name] then 64
  else -1

/-- A column of the type with the size that goes with it. -/
def ofType (name : String) (type : Oid) (modifier : Int32) : Column :=
  ⟨name, type, modifier, sizeOfType type⟩

/-- What is assumed of a column that the engine does not describe. -/
def undescribed : Column := ⟨"", Oid.unknown, Facets.undeclared, -1⟩

end Column

inductive Response
  /-- With a table.  A row can have more or fewer cells than there are columns. -/
  | rows (columns : List Column) (rows : List (List Value))
  /-- With the number of rows that were changed. -/
  | command (processed : Nat)
  | failure (record : ErrorRecord)

/-- A call of the engine, as its log shows it. -/
inductive Call
  | prepare (query : String) (types : List Oid)
  /-- The markers tell which arguments are null. -/
  | executePlan (query : String) (arguments : List Value) (markers : List Char)
  | execute (query : String) (readOnly : Bool)
  | commit
  | rollback

namespace Call

def query? : Call → Option String
  | executePlan query _ _ => some query
  | execute query _ => some query
  | _ => none

end Call

/-- A table that a query has produced.  A cell without a datum is null. -/
structure Table where
  columns : List Column
  rows : List (List (Option Datum))

/-- What goes wrong on purpose. -/
structure Faults where
  commit : Option ErrorRecord := none
  rollback : Option ErrorRecord := none
  /-- The row at this position cannot be fetched from any table. -/
  fetch : Option Nat := none
  /-- Values of this type cannot be decoded. -/
  decode : Option Oid := none
  /-- This row count is reported instead of the real one. -/
  rowCount : Option Nat := none
  /-- At most so many columns of a table are described. -/
  described : Option Nat := none

structure Engine where
  /-- Answers by query, a newer one in front of an older one. -/
  script : List (String × Response)
  plans : Array String
  tables : Array Table
  /-- The values of the datums from one on. -/
  values : Array Value
  /-- Error records by handle, without those that have been released. -/
  records : Array (Option ErrorRecord)
  /-- The handles whose records have been given up, in order.  One that is given up twice is here
  twice. -/
  releases : Array RecordHandle
  /-- How many rows the last query has processed. -/
  rowCount : Nat
  version : String
  calls : Array Call
  faults : Faults

namespace Engine

/-- Answers a query in this way from now on.  Blanks around a query do not matter. -/
def answerWith (e : Engine) (query : String) (response : Response) : Engine :=
  { e with script := (Text.trim query, response) :: e.script }

def scripted? (e : Engine) (query : String) : Option Response :=
  e.script.lookup (Text.trim query)

def value? (e : Engine) (d : Datum) : Option Value :=
  match d.index with
  | 0 => some .null
  | i + 1 => e.values[i]?

def log (e : Engine) (call : Call) : Engine :=
  { e with calls := e.calls.push call }

def executedQueries (e : Engine) : List String :=
  e.calls.toList.filterMap Call.query?

/-- The record of a failure.  A released record reads as an empty one. -/
def record (e : Engine) (h : RecordHandle) : ErrorRecord :=
  (e.records[h.index]?.join).getD {}

/-- Gives up a record. -/
def release (e : Engine) (h : RecordHandle) : Engine :=
  { e with
    records := e.records.setIfInBounds h.index none
    releases := e.releases.push h }

def outstanding (e : Engine) : Nat :=
  e.records.toList.countP Option.isSome

def reportedRows (e : Engine) : Nat :=
  e.faults.rowCount.getD e.rowCount

theorem value?_null (e : Engine) : e.value? Datum.null = some .null := rfl

end Engine
end SqlSession
