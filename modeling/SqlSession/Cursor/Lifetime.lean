import SqlSession.Command.Dispatch
import SqlSession.Connection.Basic
import SqlSession.Cursor.Basic

/-!
# The life of a cursor

A command that has been sent gives a cursor, and the connection is fetching until the cursor ends.
A cursor ends once, by being closed, disposed of or dropped, and gives the connection back.
-/

namespace SqlSession
namespace Cursor

/-- The stage of a cursor that has ended in this way. -/
def ending (disposing : Bool) : Stage := if disposing then .disposed else .closed

/-- Ends a cursor.  Only the first end concerns the connection.  Later on a closed cursor can still
be disposed of. -/
def finish (disposing : Bool) (cursor : Cursor) (c : Connection) : Cursor × Connection :=
  if cursor.isClosed then
    (if disposing then { cursor with stage := .disposed } else cursor, c)
  else
    ({ cursor with stage := ending disposing, onRow := false, pending := false },
      c.endCursor cursor.ownsBinding cursor.behavior.closeConnection)

def close (cursor : Cursor) (c : Connection) : Cursor × Connection := cursor.finish false c

def dispose (cursor : Cursor) (c : Connection) : Cursor × Connection := cursor.finish true c

/-- The connection after a cursor has been let go. -/
def drop (cursor : Cursor) (c : Connection) : Connection := (cursor.dispose c).2

/-- The SQL name of the type of a column, with the facets of the column.  The types are loaded if
they have to be, which the cursor does not notice. -/
def typeName (cursor : Cursor) (i : Nat) : ConnectionM String := do
  let f ← ofExcept (cursor.field i)
  let t ← Connection.onRegistry (Registry.resolve f.type)
  return t.displayWith f.modifier

end Cursor

namespace Command

/-- Sends a command.  If sending fails the connection is as ready as before. -/
def openCursor (command : Command) : ConnectionM Cursor := fun c =>
  match c.checkReady with
  | .error err => .error err c
  | .ok () =>
    match plan c.config.numberNamed command.parts with
    | .error err => .error err c
    | .ok statements =>
      let (ownsBinding, c) := c.beginExecution
      match Connection.onEngine (PlannedStatement.sendAll statements) c with
      | .ok outcomes c =>
        .ok { outcomes, behavior := command.behavior, ownsBinding } { c with phase := .fetching }
      | .error err c => .error err (c.endExecution ownsBinding)

/-- Sends a command and walks its cursor, which then ends.  A failed walk lets the cursor go. -/
def withCursor (command : Command) (walk : Engine → CursorM α) : ConnectionM α := fun c =>
  match command.openCursor c with
  | .error err c => .error err c
  | .ok cursor c =>
    match walk c.engine cursor with
    | .ok a cursor => .ok a (cursor.close c).2
    | .error err cursor => .error err (cursor.drop c)

/-- The first value of the first row of the first result, if there is one.  The walk goes over all
results. -/
def scalar (command : Command) : ConnectionM (Option Value) :=
  command.withCursor fun e => do
    let first ← Cursor.firstValue e
    Cursor.skipAll e
    return first

/-- How many rows the statements of a command have changed. -/
def nonQuery (command : Command) : ConnectionM Int :=
  command.withCursor fun e => do
    Cursor.skipAll e
    return (← get).affected

end Command
end SqlSession
