import SqlSession.Cursor.Lifetime
import SqlSession.Engine.Setting
import SqlSession.Transaction.Basic

/-!
# Steps of a session

A step is one thing that a caller can do: with a connection, with a transaction that has begun on
it, or with a cursor that is open on it.
-/

namespace SqlSession

/-- A column of the current row, by its position or by its name. -/
inductive ColumnRef
  | ordinal (i : Nat)
  | name (name : String)

/-- What can be done with a connection, also with one that is inside a transaction. -/
inductive ConnectionStep
  | openUp
  | close
  | describe
  | configure (setting : Setting)
  /-- Goes on with a new connection to a new engine. -/
  | replace (settings : List Setting) (config : Config)
  | takeCursorEnd
  | executedQueries
  | loadTypes
  | lookupType (oid : Oid)
  | resolveType (oid : Oid)
  /-- Sends statements to the engine without a command. -/
  | send (statements : List PlannedStatement)
  | openCursor (command : Command)
  | scalar (command : Command)
  | nonQuery (command : Command)
  | begin (level : IsolationLevel)

/-- What can be done with a transaction besides work on its connection. -/
inductive TransactionStep
  | commit
  | rollback
  /-- Lets the transaction go, which rolls it back. -/
  | drop
  /-- Forgets the transaction without an end. -/
  | leak
  | save (name : String)
  | release (name : String)
  | rollbackTo (name : String)

inductive CursorStep
  | nextResult
  | read
  | fieldCount
  | fields
  | name (i : Nat)
  | typeOid (i : Nat)
  | typeName (i : Nat)
  | ordinal (name : String)
  | isNull (i : Nat)
  | value (i : Nat)
  | values
  | convert (column : ColumnRef) (target : Target)
  | convertOptional (column : ColumnRef) (target : Target)
  | takeCursorEnd
  | drain
  | close
  | dispose
  /-- Lets the cursor go, which disposes of it. -/
  | drop
  /-- Forgets the cursor without an end. -/
  | leak

inductive Step
  | connection (step : ConnectionStep)
  | transaction (step : TransactionStep)
  | cursor (step : CursorStep)

inductive Ending
  | dropped
  | leaked
  | committed
  | rolledBack
deriving DecidableEq, Repr

structure ConnectionInfo where
  isOpen : Bool
  version : Except Error Version
  config : Config
  registrySize : Nat

/-- What a step answers if it does not fail. -/
inductive Reply
  | done
  | flag (b : Bool)
  | count (n : Nat)
  | affected (n : Int)
  | text (s : String)
  | oid (oid : Oid)
  | value (v : Value)
  | values (vs : List Value)
  | scalar (v : Option Value)
  | converted (target : Target) (v : Option target.Carrier)
  | fields (fields : List Field)
  | queries (queries : List String)
  | type (t : Option TypeDescriptor)
  | outcomes (outcomes : List Outcome)
  | info (info : ConnectionInfo)
  | drained (listings : List Cursor.Listing) (failure : Option Error)
  | ended (ending : Ending)

end SqlSession
