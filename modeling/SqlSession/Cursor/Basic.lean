import SqlSession.Command.Basic
import SqlSession.Engine.Tuples
import SqlSession.Outcome
import SqlSession.Text.Folding
import SqlSession.Value.Conversion

/-!
# Cursors

A cursor walks over the results of a command, one after the other, and over the rows of each.  It
fetches the first row of a result when it comes to the result, and every other row when it is read.

All operations take the engine as an argument, because a cursor reads from it and never changes it.
-/

namespace SqlSession

structure Field where
  name : String
  /-- The type of the rows of the table that the column belongs to. -/
  rowType : Oid
  ordinal : Nat
  type : Oid
  size : Int16
  modifier : Int32
deriving DecidableEq, Repr

namespace Field

/-- Values are delivered as text, which is the format with this number. -/
def formatCode : Nat := 0

/-- The columns of a table.  A column that the engine does not describe has no name and the unknown
type. -/
def ofTable (e : Engine) (t : TableHandle) : List Field :=
  (List.range (e.columnCount t)).map fun i =>
    let column := (e.describedColumns t)[i]?.getD Column.undescribed
    ⟨column.name, Engine.rowType t, i, column.type, column.size, column.modifier⟩

end Field

inductive Stage
  /-- Before the first result, and nowhere else. -/
  | betweenResults
  /-- On a result of which nothing has been read. -/
  | beforeResult
  | inResult
  /-- Behind the last result, or stopped by a failure. -/
  | consumed
  | closed
  | disposed
deriving DecidableEq, Repr

structure Cursor where
  outcomes : List Outcome
  behavior : Behavior
  /-- Whether the connection became bound for this cursor. -/
  ownsBinding : Bool
  stage : Stage := .betweenResults
  position : Option Nat := none
  nextRow : Nat := 0
  /-- The buffers hold the first row, and it has not been read. -/
  pending : Bool := false
  /-- The buffers hold the current row. -/
  onRow : Bool := false
  fields : List Field := []
  buffer : RowBuffer := RowBuffer.blank 0

abbrev CursorM (α : Type) := EStateM Error Cursor α

namespace Cursor

def isClosed (c : Cursor) : Bool :=
  c.stage == .closed || c.stage == .disposed

/-- The outcome of the statement that the current result belongs to. -/
def outcome? (c : Cursor) : Option Outcome :=
  c.position.bind fun i => c.outcomes[i]?

/-- The table of the current result and the number of its rows, if it shows rows at all. -/
def source? (c : Cursor) : Option (TableHandle × Nat) :=
  if c.behavior.schemaOnly then none
  else c.outcome?.bind fun o => o.table.map fun t => (t, o.processed)

def rowCount (c : Cursor) : Nat :=
  match c.source? with
  | some (_, count) => count
  | none => 0

def hasRows (c : Cursor) : Bool :=
  !c.isClosed && decide (0 < c.rowCount)

/-- Fetches a row into the buffers.  A failure ends the walk. -/
def fetch (e : Engine) (t : TableHandle) (index : Nat) : CursorM Unit := fun c =>
  match e.fetchRow index t c.buffer with
  | .ok buffer => .ok () { c with buffer }
  | .error err => .error err { c with stage := .consumed, onRow := false }

/-- The cursor on the result at a position, before its first row. -/
def enter (e : Engine) (c : Cursor) (position : Nat) (o : Outcome) : Cursor :=
  let fields := match o.table with
    | some t => Field.ofTable e t
    | none => []
  { c with
    stage := .beforeResult, position := some position, nextRow := 0, pending := false
    onRow := false, fields, buffer := RowBuffer.blank fields.length }

/-- The cursor behind its last result.  It still shows the columns of that one. -/
def exhaust (c : Cursor) : Cursor :=
  { c with
    stage := .consumed, position := some c.outcomes.length, pending := false, onRow := false }

/-- Goes to the next result, and tells whether there is one.  Its first row is fetched already
now. -/
def nextResult (e : Engine) : CursorM Bool := do
  let c ← get
  match c.stage with
  | .closed | .disposed | .consumed => return false
  | .betweenResults | .beforeResult | .inResult =>
    let position := match c.position with
      | some i => i + 1
      | none => 0
    match c.outcomes[position]? with
    | none =>
      set c.exhaust
      return false
    | some o =>
      set (c.enter e position o)
      match (c.enter e position o).source? with
      | some (t, _ + 1) =>
        fetch e t 0
        modify fun c => { c with nextRow := 1, pending := true }
        return true
      | _ => return true

/-- Goes to the next row of the current result, and tells whether there is one. -/
def read (e : Engine) : CursorM Bool := do
  let c ← get
  match c.stage with
  | .beforeResult =>
    set { c with stage := .inResult, onRow := c.pending, pending := false }
    return c.pending
  | .inResult =>
    match c.source? with
    | some (t, count) =>
      if c.nextRow < count then
        fetch e t c.nextRow
        modify fun c => { c with nextRow := c.nextRow + 1, onRow := true }
        return true
      else
        set { c with onRow := false }
        return false
    | none =>
      set { c with onRow := false }
      return false
  | .betweenResults | .consumed | .closed | .disposed => return false

/-! ## Columns -/

def checkOpen (c : Cursor) : Except Error Unit :=
  if c.isClosed then .error (.state .cursorClosed) else .ok ()

def field (c : Cursor) (i : Nat) : Except Error Field := do
  c.checkOpen
  match c.fields[i]? with
  | some f => return f
  | none => throw (.range (.ordinal i c.fields.length))

/-- The position of the column with this name.  An exact match wins over one up to case. -/
def ordinal (c : Cursor) (name : String) : Except Error Nat := do
  c.checkOpen
  match Text.findNamed? (fun f => some f.name) name c.fields with
  | some f => return f.ordinal
  | none => throw (.range (.column name))

/-- The column at a position, if there is a current row. -/
def rowField (c : Cursor) (i : Nat) : Except Error Field := do
  c.checkOpen
  if c.onRow then c.field i else throw (.state .noRow)

def isNull (c : Cursor) (i : Nat) : Except Error Bool := do
  let _ ← c.rowField i
  return c.buffer.nulls[i]?.getD false

def value (e : Engine) (c : Cursor) (i : Nat) : Except Error Value := do
  let f ← c.rowField i
  match c.buffer.cell? i with
  | some (d, false) => e.decode d f.type
  | _ => return .null

/-- The values of the current row.  A row without columns has none, and asking for them never
fails. -/
def values (e : Engine) (c : Cursor) : Except Error (List Value) :=
  (List.range c.fields.length).mapM (c.value e)

def valueAs (e : Engine) (target : Target) (c : Cursor) (i : Nat) :
    Except Error target.Carrier := do
  (← c.value e i).as target

/-- The value in a column, read as a target or as nothing if it is null. -/
def valueAsOptional (e : Engine) (target : Target) (c : Cursor) (i : Nat) :
    Except Error (Option target.Carrier) := do
  (← c.value e i).asOptional target

/-! ## The whole walk -/

/-- The outcomes of the results that the cursor has come to. -/
def visited (c : Cursor) : List Outcome :=
  match c.position with
  | some i => c.outcomes.take (i + 1)
  | none => []

/-- How many rows have been changed by the statements that the cursor has come to. -/
def affected (c : Cursor) : Int := Outcome.affected c.visited

/-- Goes over at most so many results. -/
def skip (e : Engine) : Nat → CursorM Unit
  | 0 => return
  | bound + 1 => do
    if ← nextResult e then skip e bound

def skipAll (e : Engine) : CursorM Unit := do
  skip e ((← get).outcomes.length + 1)

/-- The first value of the first row of the next result, if there is one. -/
def firstValue (e : Engine) : CursorM (Option Value) := do
  if ← nextResult e then
    if ← read e then
      let c ← get
      if c.fields.isEmpty then return none
      else return some (← ofExcept (c.value e 0))
    else return none
  else return none

/-- A result that has been read to its end.  A row whose values cannot be had is an error. -/
structure Listing where
  fields : List Field
  rows : List (Except Error (List Value))

/-- Reads at most so many rows, and tells what has stopped the reading if it was a failure. -/
def readRows (e : Engine) : Nat → Cursor → List (Except Error (List Value)) × Option Error × Cursor
  | 0, c => ([], none, c)
  | bound + 1, c =>
    match read e c with
    | .ok true c =>
      let (rows, failure, last) := readRows e bound c
      (c.values e :: rows, failure, last)
    | .ok false c => ([], none, c)
    | .error err c => ([], some err, c)

/-- Reads at most so many results to their ends. -/
def readResults (e : Engine) : Nat → Cursor → List Listing × Option Error × Cursor
  | 0, c => ([], none, c)
  | bound + 1, c =>
    match nextResult e c with
    | .ok true c =>
      let (rows, failure, last) := readRows e (c.rowCount + 1) c
      match failure with
      | some err => ([⟨c.fields, rows⟩], some err, last)
      | none =>
        let (listings, failure, last) := readResults e bound last
        (⟨c.fields, rows⟩ :: listings, failure, last)
    | .ok false c => ([], none, c)
    | .error err c => ([], some err, c)

def drain (e : Engine) (c : Cursor) : List Listing × Option Error × Cursor :=
  readResults e (c.outcomes.length + 1) c

end Cursor
end SqlSession
