import SqlSession.Engine.Catalog

/-!
# Settings of a scripted engine

A setting changes what the engine will answer, and nothing that it has handed out.
-/

namespace SqlSession

inductive Setting
  | version (text : String)
  /-- The rows that answer the catalog query. -/
  | catalog (rows : List (List Value))
  | script (query : String) (response : Response)
  | failCommit (record : ErrorRecord)
  | failRollback (record : ErrorRecord)
  | failFetch (row : Nat)
  | failDecode (type : Option Oid)
  | reportRows (count : Option Nat)
  | describeColumns (limit : Nat)

namespace Engine

def configure (e : Engine) : Setting → Engine
  | .version text => { e with version := text }
  | .catalog rows => e.withCatalog rows
  | .script query response => e.answerWith query response
  | .failCommit record => { e with faults := { e.faults with commit := some record } }
  | .failRollback record => { e with faults := { e.faults with rollback := some record } }
  | .failFetch row => { e with faults := { e.faults with fetch := some row } }
  | .failDecode type => { e with faults := { e.faults with decode := type } }
  | .reportRows count => { e with faults := { e.faults with rowCount := count } }
  | .describeColumns limit => { e with faults := { e.faults with described := some limit } }

/-- A new engine with these settings, a later one being applied later. -/
def ofSettings (settings : List Setting) : Engine :=
  settings.foldl configure initial

end Engine
end SqlSession
