import SqlSession.Error

/-!
# Isolation levels
-/

namespace SqlSession

inductive IsolationLevel
  | unspecified
  | readUncommitted
  | readCommitted
  | repeatableRead
  | snapshot
  | serializable
  | chaos
deriving DecidableEq, Repr

namespace IsolationLevel

/-- A level as SQL writes it.  Snapshots are what the engine means by repeatable reads, and a level
without any guarantee is refused. -/
def sql : IsolationLevel → Except Error String
  | unspecified | readCommitted => .ok "READ COMMITTED"
  | readUncommitted => .ok "READ UNCOMMITTED"
  | repeatableRead | snapshot => .ok "REPEATABLE READ"
  | serializable => .ok "SERIALIZABLE"
  | chaos => .error (.unsupported .chaos)

/-- The level that a transaction gets if the caller does not choose one. -/
def effective : IsolationLevel → IsolationLevel
  | unspecified => readCommitted
  | level => level

end IsolationLevel
end SqlSession
