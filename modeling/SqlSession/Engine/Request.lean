import SqlSession.Engine.Tuples
import SqlSession.Outcome

/-!
# Requests to an engine

A request is a native call whose failure has been turned into an error for callers.  The error
record is read once and then released, so a request leaves no record behind.
-/

namespace SqlSession

/-- Work with an engine that can fail. -/
abbrev EngineM (α : Type) := EStateM Error Engine α

namespace Request

/-- What callers see of a record, and the engine without the record. -/
def consume (h : RecordHandle) (e : Engine) : DatabaseError × Engine :=
  (DatabaseError.ofRecord (e.record h), e.release h)

/-- A native call that fails with an error for callers. -/
def guarded (call : Native α) : EngineM α := fun e =>
  match call e with
  | .ok a e => .ok a e
  | .error h e =>
    let (failure, e) := consume h e
    .error (.database failure) e

/-- A native call that runs a query.  The outcome has the row count that the engine reports right
after it. -/
def outcome (call : Native (Option TableHandle)) : EngineM Outcome := do
  let table ← guarded call
  return ⟨table, (← get).reportedRows⟩

def prepare (query : String) (types : List Oid) : EngineM PlanHandle :=
  guarded (Engine.prepare query types)

def executePlan (plan : PlanHandle) (arguments : List Datum) (markers : List Char) :
    EngineM Outcome :=
  outcome (Engine.executePlan plan arguments markers)

def execute (query : String) (readOnly : Bool) : EngineM Outcome :=
  outcome (Engine.execute query readOnly)

def commit : EngineM Unit := guarded Engine.commit

def rollback : EngineM Unit := guarded Engine.rollback

end Request
end SqlSession
