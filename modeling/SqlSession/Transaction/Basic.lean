import SqlSession.Connection.Basic
import SqlSession.Transaction.Isolation
import SqlSession.Transaction.Savepoint

/-!
# Transactions

The engine is always inside some transaction.  Beginning one commits what has been done so far and
sets the isolation level of the next one.  A transaction is completed by a commit or by a rollback,
and one that is let go before that is rolled back.
-/

namespace SqlSession

/-- A transaction that has begun. -/
structure Transaction where
  level : IsolationLevel
  /-- Its end has been asked for. -/
  completed : Bool := false
deriving DecidableEq, Repr

namespace Transaction

/-- Begins a transaction on a connection that is ready. -/
def start (level : IsolationLevel) : ConnectionM Transaction := do
  ofExcept (← get).checkReady
  let sql ← ofExcept level.effective.sql
  Connection.onEngine Request.commit
  let _ ← Connection.onEngine (Request.execute ("SET TRANSACTION ISOLATION LEVEL " ++ sql) false)
  return { level := level.effective }

/-- The connection after a transaction has been let go.  One that is not completed is rolled back,
and nobody is told if that fails. -/
def drop (t : Transaction) (c : Connection) : Connection :=
  if t.completed then c
  else match Connection.onEngine Request.rollback c with
    | .ok () c => c
    | .error _ c => c

/-- Completes a transaction by a request and lets it go.  It is completed before the request is made,
so a request that fails is not followed by a rollback. -/
def complete (request : EngineM Unit) (t : Transaction) : ConnectionM Unit := fun c =>
  let t := { t with completed := true }
  match Connection.onEngine request c with
  | .ok () c => .ok () (t.drop c)
  | .error err c => .error err (t.drop c)

def commit (t : Transaction) : ConnectionM Unit := t.complete Request.commit

def rollback (t : Transaction) : ConnectionM Unit := t.complete Request.rollback

/-- Runs a statement about a savepoint.  The connection may be closed or busy. -/
def onSavepoint (words : String) (name : String) : ConnectionM Unit := do
  let quoted ← ofExcept (Savepoint.quote name)
  let _ ← Connection.onEngine (Request.execute (words ++ quoted) false)

def save (name : String) : ConnectionM Unit := onSavepoint "SAVEPOINT " name

def release (name : String) : ConnectionM Unit := onSavepoint "RELEASE SAVEPOINT " name

def rollbackTo (name : String) : ConnectionM Unit := onSavepoint "ROLLBACK TO SAVEPOINT " name

end Transaction
end SqlSession
