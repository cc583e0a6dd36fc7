import SqlSession.Proofs.Command.Opening
import SqlSession.Transaction.Basic

/-!
# Phases and bindings

What a connection is doing and how it is bound to its engine go together: `Binding.due` is the binding
that goes with a phase.  `Connection.Stands c bindOnOpen phase` says that a connection is in a phase
and has this binding.  Opening and closing a connection, starting a command on it and ending a cursor
lead from one phase with its binding to another one, and nothing else that is done with a connection
has to do with either (`Connection.Stays`).
-/

namespace SqlSession

/-- The binding that goes with a phase.  A connection that is not bound for as long as it is open is
bound for each of its cursors. -/
def Binding.due (bindOnOpen : Bool) : Phase → Binding
  | .closed => .unbound
  | .idle => if bindOnOpen then .connection else .unbound
  | .executing | .fetching => if bindOnOpen then .connection else .cursor

namespace Connection

structure Standing where
  phase : Phase
  binding : Binding
  bindOnOpen : Bool

def standing (c : Connection) : Standing := ⟨c.phase, c.binding, c.config.bindOnOpen⟩

def Stands (c : Connection) (bindOnOpen : Bool) (phase : Phase) : Prop :=
  c.standing = ⟨phase, Binding.due bindOnOpen phase, bindOnOpen⟩

variable {c c' : Connection} {bindOnOpen : Bool} {phase : Phase}

namespace Stands

theorem phase_eq (h : c.Stands bindOnOpen phase) : c.phase = phase :=
  congrArg Standing.phase h

theorem binding_eq (h : c.Stands bindOnOpen phase) : c.binding = Binding.due bindOnOpen phase :=
  congrArg Standing.binding h

theorem bindOnOpen_eq (h : c.Stands bindOnOpen phase) : c.config.bindOnOpen = bindOnOpen :=
  congrArg Standing.bindOnOpen h

theorem exists_eq (h : c.Stands bindOnOpen phase) :
    ∃ engine numberNamed sharesRegistry registry ended,
      c = ⟨engine, ⟨numberNamed, bindOnOpen, sharesRegistry⟩, registry, phase,
        Binding.due bindOnOpen phase, ended⟩ := by
  refine ⟨c.engine, c.config.numberNamed, c.config.sharesRegistry, c.registry, c.cursorEnded, ?_⟩
  rw [← h.binding_eq]
  obtain rfl := h.phase_eq
  obtain rfl := h.bindOnOpen_eq
  rfl

theorem of_standing (h : c.Stands bindOnOpen phase) (heq : c'.standing = c.standing) :
    c'.Stands bindOnOpen phase := heq.trans h

end Stands

/-! ## Work with the engine -/

/-- The work concerns nothing but the engine and the types, and may fail with anything. -/
def Stays {α : Type} (work : ConnectionM α) : Prop :=
  Effect.Keeps standing (fun _ => True) work

theorem onEngine_stays {α : Type} (work : EngineM α) : Stays (onEngine work) := by
  intro c
  unfold onEngine
  cases work c.engine with
  | ok a e => exact rfl
  | error err e => exact ⟨rfl, trivial⟩

theorem onRegistry_stays {α : Type} (work : EStateM Error (Registry × Engine) α) :
    Stays (onRegistry work) := by
  intro c
  unfold onRegistry
  cases work (c.registry, c.engine) with
  | ok a s => exact rfl
  | error err s => exact ⟨rfl, trivial⟩

theorem ofExcept_stays {α : Type} (x : Except Error α) : Stays (ofExcept x : ConnectionM α) :=
  Effect.keeps_ofExcept fun _ _ => trivial

theorem get_stays : Stays (get : ConnectionM Connection) := fun _ => rfl

theorem pure_stays {α : Type} (a : α) : Stays (pure a : ConnectionM α) := Effect.keeps_pure a

/-! ## From phase to phase -/

theorem openUp_stands (h : c.Stands bindOnOpen .closed) :
    ∃ c', openUp c = .ok () c' ∧ c'.Stands bindOnOpen .idle := by
  obtain ⟨engine, numberNamed, sharesRegistry, registry, ended, rfl⟩ := h.exists_eq
  exact ⟨_, rfl, rfl⟩

theorem openUp_of_open (h : c.phase ≠ .closed) :
    openUp c = .error (.state (.alreadyOpen c.phase)) c := by
  unfold openUp
  rw [if_neg h]

theorem close_stands (h : c.Stands bindOnOpen phase) : c.close.Stands bindOnOpen .closed := by
  unfold close
  split
  · next hclosed =>
    rw [h.phase_eq] at hclosed
    rwa [hclosed] at h
  · rw [Stands, standing, h.bindOnOpen_eq]
    rfl

/-- A cursor owns the binding of its connection if the connection is not bound while it is open. -/
theorem fetching_stands (h : c.Stands bindOnOpen .idle) (e : Engine) :
    (c.fetching e).Stands bindOnOpen .fetching ∧ c.beginExecution.1 = !bindOnOpen := by
  obtain ⟨engine, numberNamed, sharesRegistry, registry, ended, rfl⟩ := h.exists_eq
  cases bindOnOpen <;> exact ⟨rfl, rfl⟩


theorem endCursor_stands (h : c.Stands bindOnOpen .fetching) (closes : Bool) :
    (c.endCursor (!bindOnOpen) closes).Stands bindOnOpen (if closes then .closed else .idle) := by
  obtain ⟨engine, numberNamed, sharesRegistry, registry, ended, rfl⟩ := h.exists_eq
  cases bindOnOpen <;> cases closes <;> rfl

theorem served_stands (h : c.Stands bindOnOpen .idle) (closes : Bool) (e : Engine) :
    (c.served closes e).Stands bindOnOpen (if closes then .closed else .idle) := by
  obtain ⟨hfetching, howns⟩ := fetching_stands h e
  rw [← endCursor_fetching h.phase_eq, howns]
  exact endCursor_stands hfetching closes

end Connection

/-- A command without a cursor has used the engine and nothing else. -/
theorem Command.openCursor_standing {command : Command} {c c' : Connection} {err : Error}
    (h : command.openCursor c = .error err c') : c'.standing = c.standing := by
  obtain ⟨rfl, -⟩ | ⟨statements, e, -, -, rfl⟩ := Command.openCursor_eq_error h
  · rfl
  · rfl

/-! ## Transactions -/

namespace Transaction

open Connection

theorem start_stays (level : IsolationLevel) : Stays (start level) :=
  get_stays.bind fun _ => (ofExcept_stays _).bind fun _ => (ofExcept_stays _).bind fun _ =>
    (onEngine_stays _).bind fun _ => (onEngine_stays _).bind fun _ => pure_stays _

theorem onSavepoint_stays (words name : String) : Stays (onSavepoint words name) :=
  (ofExcept_stays _).bind fun _ => (onEngine_stays _).bind fun _ => pure_stays _

theorem drop_standing (t : Transaction) (c : Connection) : (t.drop c).standing = c.standing := by
  have hends : Effect.Ends _ _ (onEngine Request.rollback c) := onEngine_stays Request.rollback c
  unfold drop
  split
  · rfl
  · cases h : onEngine Request.rollback c with
    | ok a c' => exact hends.of_ok h
    | error err c' => exact (hends.of_error h).1

theorem complete_stays (request : EngineM Unit) (t : Transaction) : Stays (t.complete request) := by
  intro c
  have hends : Effect.Ends _ _ (onEngine request c) := onEngine_stays request c
  unfold complete
  cases h : onEngine request c with
  | ok a c' => exact (drop_standing _ c').trans (hends.of_ok h)
  | error err c' => exact ⟨(drop_standing _ c').trans (hends.of_error h).1, trivial⟩

end Transaction

/-- There is no name for a column that is not there, and nothing is looked up for it. -/
theorem Cursor.typeName_of_error {cursor : Cursor} {i : Nat} {err : Error}
    (h : cursor.field i = .error err) (c : Connection) :
    cursor.typeName i c = .error err c := by
  unfold typeName
  rw [h]
  rfl

theorem Cursor.typeName_stays (cursor : Cursor) (i : Nat) :
    Connection.Stays (cursor.typeName i) :=
  (Connection.ofExcept_stays _).bind fun _ => (Connection.onRegistry_stays _).bind fun _ =>
    Connection.pure_stays _

end SqlSession
