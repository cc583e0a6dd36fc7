import SqlSession.Command.Basic
import SqlSession.Engine.Request

/-!
# Sending statements

A statement without arguments is executed as it is.  One with arguments is prepared with their types
and then executed as a plan.  The first failure ends the sending.
-/

namespace SqlSession

/-- An argument as the engine gets it. -/
structure Argument where
  type : Oid
  datum : Datum
  isNull : Bool
deriving DecidableEq

namespace Argument

/-- How the engine is told that an argument is null or not. -/
def marker (a : Argument) : Char := if a.isNull then 'n' else ' '

/-- Hands the value of a parameter to the engine.  A null is not handed over. -/
def ofParameter (p : Parameter) : EngineM Argument :=
  if p.value.isNull then pure ⟨p.typeOid, Datum.null, true⟩
  else do
    let d ← Engine.encode p.typeOid p.value
    return ⟨p.typeOid, d, false⟩

/-- Hands over the values of parameters in their order. -/
def ofParameters (parameters : List Parameter) : EngineM (List Argument) :=
  parameters.mapM ofParameter

end Argument

namespace PlannedStatement

/-- Sends a statement. -/
def send (s : PlannedStatement) : EngineM Outcome :=
  match s.parameters with
  | [] => Request.execute s.sql false
  | parameters => do
    let arguments ← Argument.ofParameters parameters
    let plan ← Request.prepare s.sql (arguments.map Argument.type)
    Request.executePlan plan (arguments.map Argument.datum) (arguments.map Argument.marker)

/-- Sends statements in their order. -/
def sendAll (statements : List PlannedStatement) : EngineM (List Outcome) :=
  statements.mapM send

end PlannedStatement
end SqlSession
