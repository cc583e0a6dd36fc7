import SqlSession.SqlState

/-!
# Error records of the engine and what callers see of them

When a call fails the engine keeps a record of the failure.  Callers get the part of it that
concerns them, with the packed state unpacked and the level named.
-/

namespace SqlSession

/-- Everything the engine knows about a failure. -/
structure ErrorRecord where
  level : Int32 := 0
  toServer : Bool := false
  toClient : Bool := false
  hideStatement : Bool := false
  hideContext : Bool := false
  file : Option String := none
  line : Int32 := 0
  routine : Option String := none
  domain : Option String := none
  contextDomain : Option String := none
  code : Int32 := 0
  message : Option String := none
  detail : Option String := none
  detailLog : Option String := none
  hint : Option String := none
  context : Option String := none
  backtrace : Option String := none
  messageId : Option String := none
  schema : Option String := none
  table : Option String := none
  column : Option String := none
  dataType : Option String := none
  constraint : Option String := none
  position : Int32 := 0
  internalPosition : Int32 := 0
  internalQuery : Option String := none
  systemError : Int32 := 0
deriving DecidableEq

namespace ErrorRecord

/-- The level of an ordinary error. -/
def errorLevel : Int32 := 21

/-- An error with a state and a message. -/
def ofState (state message : String) : ErrorRecord :=
  { level := errorLevel
    toClient := true
    code := (SqlState.encode? state).getD 0
    message := some message }

end ErrorRecord

/-- The name of a level.  Levels between two names count to the lower one. -/
def severityName (level : Int32) : String :=
  let n := level.toInt
  if 10 ≤ n ∧ n ≤ 14 then "DEBUG"
  else if n = 15 ∨ n = 16 then "LOG"
  else if n = 17 then "INFO"
  else if n = 18 then "NOTICE"
  else if n = 19 ∨ n = 20 then "WARNING"
  else if n = 21 then "ERROR"
  else if n = 22 then "FATAL"
  else if n = 23 then "PANIC"
  else "???"

/-- A failure of the engine as callers see it. -/
structure DatabaseError where
  severity : String
  level : Int32
  state : String
  code : Int32
  message : String
  detail : Option String
  hint : Option String
  position : Int32
  internalPosition : Int32
  internalQuery : Option String
  context : Option String
  schema : Option String
  table : Option String
  column : Option String
  dataType : Option String
  constraint : Option String
  file : Option String
  line : Option String
  routine : Option String
deriving DecidableEq

namespace DatabaseError

/-- What callers see of a record.  A record without a message has an empty one, and only a positive
line is a line. -/
def ofRecord (r : ErrorRecord) : DatabaseError where
  severity := severityName r.level
  level := r.level
  state := SqlState.decode r.code
  code := r.code
  message := r.message.getD ""
  detail := r.detail
  hint := r.hint
  position := r.position
  internalPosition := r.internalPosition
  internalQuery := r.internalQuery
  context := r.context
  schema := r.schema
  table := r.table
  column := r.column
  dataType := r.dataType
  constraint := r.constraint
  file := r.file
  line := if 0 < r.line.toInt then some (toString r.line.toInt) else none
  routine := r.routine

/-- The error in one line. -/
def text (e : DatabaseError) : String :=
  e.state ++ ": " ++ e.message

end DatabaseError
end SqlSession
