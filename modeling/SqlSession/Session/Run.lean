import SqlSession.Session.Step

/-!
# Sessions

A session is a connection and the scopes that are open on it.  A cursor occupies its connection, so
it is always the innermost scope.  A transaction lends its connection, so cursors and further
transactions open inside it.
-/

namespace SqlSession

inductive Scope
  | cursor (c : Cursor)
  | transaction (t : Transaction)

structure Session where
  connection : Connection
  /-- The open scopes, the innermost first. -/
  scopes : List Scope := []

namespace Session

/-- A session on a closed connection to a new engine. -/
def start (settings : List Setting) (config : Config) : Session :=
  { connection := { engine := Engine.ofSettings settings, config } }

def onConnection (s : Session) (reply : α → Reply) (work : ConnectionM α) :
    Except Error Reply × Session :=
  match work s.connection with
  | .ok a connection => (.ok (reply a), { s with connection })
  | .error err connection => (.error err, { s with connection })

/-- Opens a scope on the connection of a session. -/
def enter (s : Session) (scope : α → Scope) (work : ConnectionM α) :
    Except Error Reply × Session :=
  match work s.connection with
  | .ok a connection => (.ok .done, ⟨connection, scope a :: s.scopes⟩)
  | .error err connection => (.error err, { s with connection })

/-- Ends the innermost scope, whether its last work fails or not. -/
def leave (s : Session) (outer : List Scope) (ending : Ending) (work : ConnectionM Unit) :
    Except Error Reply × Session :=
  ({ s with scopes := outer } : Session).onConnection (fun () => .ended ending) work

def always (change : Connection → Connection) : ConnectionM Unit := modify change

def takeCursorEnd (s : Session) : Except Error Reply × Session :=
  let (ended, connection) := s.connection.takeCursorEnd
  (.ok (.flag ended), { s with connection })

/-- The new connection after the current one.  It goes on with the types of the current one if
they are shared. -/
def replacement (c : Connection) (settings : List Setting) (config : Config) : Connection :=
  { engine := Engine.ofSettings settings
    config
    registry := if config.sharesRegistry then c.registry else {} }

def connectionStep (s : Session) : ConnectionStep → Except Error Reply × Session
  | .openUp => s.onConnection (fun () => .done) Connection.openUp
  | .close => s.onConnection (fun () => .done) (always Connection.close)
  | .describe =>
    let c := s.connection
    (.ok (.info ⟨c.isOpen, c.version, c.config, c.registry.size⟩), s)
  | .configure setting =>
    s.onConnection (fun () => .done)
      (always fun c => { c with engine := c.engine.configure setting })
  | .replace settings config =>
    s.onConnection (fun () => .done) (always fun c => replacement c settings config)
  | .takeCursorEnd => s.takeCursorEnd
  | .executedQueries => (.ok (.queries s.connection.engine.executedQueries), s)
  | .loadTypes =>
    s.onConnection .count (do
      Connection.onRegistry Registry.ensureLoaded
      return (← get).registry.size)
  | .lookupType oid => (.ok (.type (s.connection.registry.lookup? oid)), s)
  | .resolveType oid =>
    s.onConnection (fun t => .type (some t)) (Connection.onRegistry (Registry.resolve oid))
  | .send statements =>
    s.onConnection .outcomes (Connection.onEngine (PlannedStatement.sendAll statements))
  | .openCursor command => s.enter .cursor command.openCursor
  | .scalar command => s.onConnection .scalar command.scalar
  | .nonQuery command => s.onConnection .affected command.nonQuery
  | .begin level => s.enter .transaction (Transaction.start level)

def transactionStep (s : Session) (outer : List Scope) (t : Transaction) :
    TransactionStep → Except Error Reply × Session
  | .commit => s.leave outer .committed t.commit
  | .rollback => s.leave outer .rolledBack t.rollback
  | .drop => s.leave outer .dropped (always t.drop)
  | .leak => s.leave outer .leaked (always id)
  | .save name => s.onConnection (fun () => .done) (Transaction.save name)
  | .release name => s.onConnection (fun () => .done) (Transaction.release name)
  | .rollbackTo name => s.onConnection (fun () => .done) (Transaction.rollbackTo name)

def onCursor (s : Session) (outer : List Scope) (cursor : Cursor) (reply : α → Reply)
    (work : CursorM α) : Except Error Reply × Session :=
  match work cursor with
  | .ok a cursor => (.ok (reply a), { s with scopes := .cursor cursor :: outer })
  | .error err cursor => (.error err, { s with scopes := .cursor cursor :: outer })

/-- The end of a cursor that stays in its scope. -/
def endCursor (outer : List Scope) (ended : Cursor × Connection) : Except Error Reply × Session :=
  (.ok .done, ⟨ended.2, .cursor ended.1 :: outer⟩)

def position (cursor : Cursor) : ColumnRef → Except Error Nat
  | .ordinal i => .ok i
  | .name name => cursor.ordinal name

def cursorStep (s : Session) (outer : List Scope) (cursor : Cursor) :
    CursorStep → Except Error Reply × Session
  | .nextResult => s.onCursor outer cursor .flag (Cursor.nextResult s.connection.engine)
  | .read => s.onCursor outer cursor .flag (Cursor.read s.connection.engine)
  | .fieldCount => (.ok (.count cursor.fields.length), s)
  | .fields => (.ok (.fields cursor.fields), s)
  | .name i => ((fun f => .text f.name) <$> cursor.field i, s)
  | .typeOid i => ((fun f => .oid f.type) <$> cursor.field i, s)
  | .typeName i => s.onConnection .text (cursor.typeName i)
  | .ordinal name => (.count <$> cursor.ordinal name, s)
  | .isNull i => (.flag <$> cursor.isNull i, s)
  | .value i => (.value <$> cursor.value s.connection.engine i, s)
  | .values => (.values <$> cursor.values s.connection.engine, s)
  | .convert column target =>
    (do
      let i ← position cursor column
      return .converted target (some (← cursor.valueAs s.connection.engine target i)), s)
  | .convertOptional column target =>
    (do
      let i ← position cursor column
      return .converted target (← cursor.valueAsOptional s.connection.engine target i), s)
  | .takeCursorEnd => s.takeCursorEnd
  | .drain =>
    let (listings, failure, cursor) := cursor.drain s.connection.engine
    (.ok (.drained listings failure), { s with scopes := .cursor cursor :: outer })
  | .close => endCursor outer (cursor.close s.connection)
  | .dispose => endCursor outer (cursor.dispose s.connection)
  | .drop => s.leave outer .dropped (always cursor.drop)
  | .leak => s.leave outer .leaked (always id)

/-- A step of a session, which is none if it is not one for the innermost scope. -/
def step? (s : Session) (step : Step) : Option (Except Error Reply × Session) :=
  match s.scopes, step with
  | .cursor cursor :: outer, .cursor step => some (s.cursorStep outer cursor step)
  | .cursor _ :: _, _ => none
  | .transaction t :: outer, .transaction step => some (s.transactionStep outer t step)
  | _, .connection step => some (s.connectionStep step)
  | _, _ => none

/-- The session after a step.  A step that is not for the innermost scope changes nothing. -/
def step (s : Session) (step : Step) : Session :=
  match s.step? step with
  | some (_, s) => s
  | none => s

def run (s : Session) (steps : List Step) : Session :=
  steps.foldl Session.step s

/-- The connection after a scope has been let go. -/
def dropScope (c : Connection) : Scope → Connection
  | .cursor cursor => cursor.drop c
  | .transaction t => t.drop c

/-- The connection after all scopes have been let go, the innermost first. -/
def finish (s : Session) : Connection :=
  s.scopes.foldl dropScope s.connection

theorem run_append (s : Session) (xs ys : List Step) : s.run (xs ++ ys) = (s.run xs).run ys :=
  List.foldl_append

end Session
end SqlSession
