import SqlSession.Engine.Basic

/-!
# Native calls

A native call either succeeds or leaves an error record and returns its handle.  The state of the
engine survives a failure, because the log and the record are part of it.
-/

namespace SqlSession

/-- A call that fails with the handle of an error record. -/
abbrev Native (α : Type) := EStateM RecordHandle Engine α

namespace Engine

/-- Fails with a record.  A failure has processed no rows. -/
def raise (r : ErrorRecord) : Native α := fun e =>
  .error ⟨e.records.size⟩ { e with rowCount := 0, records := e.records.push (some r) }

/-- Keeps a value and hands out its datum. -/
def store (v : Value) (values : Array Value) : Datum × Array Value :=
  (⟨values.size + 1⟩, values.push v)

/-- Keeps the cells of a row.  A null needs no datum. -/
def storeRow : List Value → Array Value → List (Option Datum) × Array Value
  | [], values => ([], values)
  | v :: rest, values =>
    if v.isNull then
      let (cells, values) := storeRow rest values
      (none :: cells, values)
    else
      let (d, values) := store v values
      let (cells, values) := storeRow rest values
      (some d :: cells, values)

def storeRows : List (List Value) → Array Value → List (List (Option Datum)) × Array Value
  | [], values => ([], values)
  | row :: rest, values =>
    let (cells, values) := storeRow row values
    let (rows, values) := storeRows rest values
    (cells :: rows, values)

/-- The statements that every engine can run without a script, by their first words. -/
def utilityWords : List String := ["SET ", "SAVEPOINT ", "RELEASE ", "ROLLBACK TO "]

/-- Whether a statement starts like a utility statement, in whatever ASCII case. -/
def isUtility (query : String) : Bool :=
  utilityWords.any fun words => words.toList.isPrefixOf (query.toList.map Char.toUpper)

/-- How the engine answers a query: as scripted, or as a utility statement, or with a syntax
error. -/
def response (e : Engine) (query : String) : Response :=
  match e.scripted? query with
  | some response => response
  | none =>
    let key := Text.trim query
    if isUtility key then .command 0
    else .failure
      { ErrorRecord.ofState SqlState.syntaxError s!"unscripted query: {key}" with position := 1 }

/-- Runs a query.  The answer is a table or nothing. -/
def run (query : String) : Native (Option TableHandle) := fun e =>
  match e.response query with
  | .rows columns rows =>
    let (cells, values) := storeRows rows e.values
    .ok (some ⟨e.tables.size⟩)
      { e with values, rowCount := rows.length, tables := e.tables.push ⟨columns, cells⟩ }
  | .command processed => .ok none { e with rowCount := processed }
  | .failure r => raise r e

/-- Prepares a query.  Only a syntax error shows already now. -/
def prepare (query : String) (types : List Oid) : Native PlanHandle := fun e =>
  let e := e.log (.prepare query types)
  let plan : EStateM.Result RecordHandle Engine PlanHandle :=
    .ok ⟨e.plans.size⟩ { e with plans := e.plans.push query }
  match e.scripted? query with
  | some (.failure r) =>
    if some r.code = SqlState.encode? SqlState.syntaxError then raise r e else plan
  | _ => plan

/-- Runs a plan with arguments.  An unknown plan is an empty query, an unknown datum a null. -/
def executePlan (plan : PlanHandle) (arguments : List Datum) (markers : List Char) :
    Native (Option TableHandle) := fun e =>
  let query := e.plans[plan.index]?.getD ""
  run query (e.log (.executePlan query (arguments.map fun d => (e.value? d).getD .null) markers))

def execute (query : String) (readOnly : Bool) : Native (Option TableHandle) := fun e =>
  run query (e.log (.execute query readOnly))

def commit : Native Unit := fun e =>
  let e := e.log .commit
  match e.faults.commit with
  | some r => raise r { e with faults := { e.faults with commit := none } }
  | none => .ok () e

def rollback : Native Unit := fun e =>
  let e := e.log .rollback
  match e.faults.rollback with
  | some r => raise r { e with faults := { e.faults with rollback := none } }
  | none => .ok () e

end Engine
end SqlSession
