/-!
# Phases of a connection
-/

namespace SqlSession

/-- What a connection is doing.  A command executes, and while its cursor is open the connection is
fetching. -/
inductive Phase
  | closed
  | idle
  | executing
  | fetching
deriving DecidableEq, Repr

namespace Phase

/-- The phase as messages name it. -/
def label : Phase → String
  | closed => "Closed"
  | idle => "Open"
  | executing => "Executing"
  | fetching => "Fetching"

end Phase

/-- What keeps a connection bound to the engine: nothing, the connection for as long as it is open,
or the cursor that found it unbound. -/
inductive Binding
  | unbound
  | connection
  | cursor
deriving DecidableEq, Repr

end SqlSession
