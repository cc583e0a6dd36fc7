import SqlSession.Catalog.Registry
import SqlSession.Connection.Version

/-!
# Connections

A connection owns an engine and a registry of its types.  It runs one command at a time: from the
start of a command to the end of its cursor the connection is busy.
-/

namespace SqlSession

structure Config where
  /-- Whether named placeholders are numbered before a text is sent. -/
  numberNamed : Bool := true
  /-- Whether the connection is bound to the engine for as long as it is open. -/
  bindOnOpen : Bool := true
  /-- Whether the types that one connection has loaded serve later ones too. -/
  sharesRegistry : Bool := true
deriving DecidableEq, Repr

structure Connection where
  engine : Engine
  config : Config := {}
  registry : Registry := {}
  phase : Phase := .closed
  binding : Binding := .unbound
  /-- A cursor has ended, and nobody has taken notice of it yet. -/
  cursorEnded : Bool := false

abbrev ConnectionM (α : Type) := EStateM Error Connection α

namespace Connection

def onEngine (work : EngineM α) : ConnectionM α := fun c =>
  match work c.engine with
  | .ok a engine => .ok a { c with engine }
  | .error err engine => .error err { c with engine }

def onRegistry (work : EStateM Error (Registry × Engine) α) : ConnectionM α := fun c =>
  match work (c.registry, c.engine) with
  | .ok a (registry, engine) => .ok a { c with registry, engine }
  | .error err (registry, engine) => .error err { c with registry, engine }

def isOpen (c : Connection) : Bool := c.phase != .closed

def openUp : ConnectionM Unit := fun c =>
  if c.phase = .closed then
    let binding := if c.config.bindOnOpen then .connection else c.binding
    .ok () { c with phase := .idle, binding }
  else .error (.state (.alreadyOpen c.phase)) c

/-- Closes a connection.  A closed one stays as it is. -/
def close (c : Connection) : Connection :=
  if c.phase = .closed then c else { c with phase := .closed, binding := .unbound }

def checkReady (c : Connection) : Except Error Unit :=
  match c.phase with
  | .idle => .ok ()
  | .closed => .error (.state .notOpen)
  | phase => .error (.state (.busy phase))

/-- Starts a command.  An unbound connection becomes bound for the cursor, which then owns the
binding. -/
def beginExecution (c : Connection) : Bool × Connection :=
  if c.binding = .unbound then (true, { c with phase := .executing, binding := .cursor })
  else (false, { c with phase := .executing })

/-- The connection after its command has ended, without the binding if the cursor owned it. -/
def endExecution (ownsBinding : Bool) (c : Connection) : Connection :=
  { c with
    phase := if c.phase = .closed then .closed else .idle
    binding := if ownsBinding && c.binding == .cursor then .unbound else c.binding }

/-- The connection after its cursor has ended. -/
def endCursor (ownsBinding closes : Bool) (c : Connection) : Connection :=
  let c := c.endExecution ownsBinding
  let c := if closes then c.close else c
  { c with cursorEnded := true }

/-- Takes notice of the end of a cursor, and tells whether there was one since the last time. -/
def takeCursorEnd (c : Connection) : Bool × Connection :=
  (c.cursorEnded, { c with cursorEnded := false })

def version (c : Connection) : Except Error Version := Version.parse c.engine.version

end Connection
end SqlSession
