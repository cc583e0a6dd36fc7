import SqlSession.Cursor.Lifetime
import SqlSession.Proofs.Cursor.Frame

/-!
# How commands leave a connection

A command that cannot be sent changes the engine of its connection at most.  One that has been sent
occupies the connection with its cursor, and the end of the cursor gives the connection back.
-/

namespace SqlSession

namespace Connection

variable {c : Connection}

/-- The connection while a cursor is open on it. -/
def fetching (c : Connection) (e : Engine) : Connection :=
  { c.beginExecution.2 with engine := e, phase := .fetching }

/-- The connection after its cursor has ended. -/
def served (c : Connection) (closes : Bool) (e : Engine) : Connection :=
  { (if closes then c.close else c) with engine := e, cursorEnded := true }

theorem checkReady_eq_ok : c.checkReady = .ok () ↔ c.phase = .idle := by
  unfold checkReady
  cases h : c.phase <;> simp

theorem beginExecution_engine (c : Connection) : c.beginExecution.2.engine = c.engine := by
  unfold beginExecution
  split <;> rfl

/-- The end of a command takes away the binding that its start has brought, and no other one. -/
theorem endExecution_beginExecution (hidle : c.phase = .idle) (e : Engine) :
    ({ c.beginExecution.2 with engine := e } : Connection).endExecution c.beginExecution.1 =
      { c with engine := e } := by
  obtain ⟨engine, config, registry, phase, binding, cursorEnded⟩ := c
  obtain rfl := hidle
  cases binding <;> rfl

theorem endCursor_fetching (hidle : c.phase = .idle) (closes : Bool) (e : Engine) :
    (c.fetching e).endCursor c.beginExecution.1 closes = c.served closes e := by
  obtain ⟨engine, config, registry, phase, binding, cursorEnded⟩ := c
  obtain rfl := hidle
  cases binding <;> cases closes <;> rfl

end Connection

namespace Cursor

theorem frame_inj {cursor cursor' : Cursor} (h : cursor'.frame = cursor.frame) :
    cursor'.outcomes = cursor.outcomes ∧ cursor'.behavior = cursor.behavior ∧
      cursor'.ownsBinding = cursor.ownsBinding ∧ cursor'.isClosed = cursor.isClosed :=
  Frame.mk.inj h

/-- Wherever an open cursor has moved to, its end leaves the connection in the same way. -/
theorem finish_of_frame {cursor cursor' : Cursor} (hopen : cursor.isClosed = false)
    (h : cursor'.frame = cursor.frame) (disposing : Bool) (c : Connection) :
    (cursor'.finish disposing c).2 =
      c.endCursor cursor.ownsBinding cursor.behavior.closeConnection := by
  obtain ⟨-, hbehavior, howns, hclosed⟩ := frame_inj h
  have hnot : ¬ cursor'.isClosed = true := by
    rw [hclosed, hopen]
    exact Bool.false_ne_true
  rw [finish, if_neg hnot, hbehavior, howns]

end Cursor

namespace Command

variable {command : Command} {c c' : Connection} {cursor last : Cursor} {err : Error}

theorem openCursor_of_busy (h : c.checkReady = .error err) :
    command.openCursor c = .error err c := by
  unfold openCursor
  rw [h]

theorem openCursor_of_unplanned (hidle : c.phase = .idle)
    (h : plan c.config.numberNamed command.parts = .error err) :
    command.openCursor c = .error err c := by
  unfold openCursor
  rw [Connection.checkReady_eq_ok.mpr hidle, h]

/-- A planned command is sent, and a failure to send it gives the connection back. -/
theorem openCursor_of_planned {statements : List PlannedStatement} (hidle : c.phase = .idle)
    (h : plan c.config.numberNamed command.parts = .ok statements) :
    command.openCursor c =
      match PlannedStatement.sendAll statements c.engine with
      | .ok outcomes e =>
        .ok { outcomes, behavior := command.behavior, ownsBinding := c.beginExecution.1 }
          (c.fetching e)
      | .error err e => .error err { c with engine := e } := by
  unfold openCursor
  rw [Connection.checkReady_eq_ok.mpr hidle, h]
  dsimp only
  unfold Connection.onEngine
  rw [Connection.beginExecution_engine]
  cases PlannedStatement.sendAll statements c.engine with
  | ok outcomes e => rfl
  | error err e => exact congrArg _ (Connection.endExecution_beginExecution hidle e)

theorem openCursor_eq_ok (h : command.openCursor c = .ok cursor c') :
    c.phase = .idle ∧ ∃ statements outcomes e,
      plan c.config.numberNamed command.parts = .ok statements ∧
      PlannedStatement.sendAll statements c.engine = .ok outcomes e ∧
      cursor = { outcomes, behavior := command.behavior, ownsBinding := c.beginExecution.1 } ∧
      c' = c.fetching e := by
  cases hready : c.checkReady with
  | error err =>
    rw [openCursor_of_busy hready] at h
    cases h
  | ok ready =>
    have hidle := Connection.checkReady_eq_ok.mp hready
    refine ⟨hidle, ?_⟩
    cases hplan : plan c.config.numberNamed command.parts with
    | error err =>
      rw [openCursor_of_unplanned hidle hplan] at h
      cases h
    | ok statements =>
      rw [openCursor_of_planned hidle hplan] at h
      cases hsend : PlannedStatement.sendAll statements c.engine with
      | error err e =>
        rw [hsend] at h
        cases h
      | ok outcomes e =>
        rw [hsend] at h
        cases h
        exact ⟨statements, outcomes, e, rfl, hsend, rfl, rfl⟩

theorem openCursor_eq_error (h : command.openCursor c = .error err c') :
    (c' = c ∧ (c.checkReady = .error err ∨
      plan c.config.numberNamed command.parts = .error err)) ∨
    ∃ statements e, plan c.config.numberNamed command.parts = .ok statements ∧
      PlannedStatement.sendAll statements c.engine = .error err e ∧
      c' = { c with engine := e } := by
  cases hready : c.checkReady with
  | error busy =>
    rw [openCursor_of_busy hready] at h
    cases h
    exact .inl ⟨rfl, .inl rfl⟩
  | ok ready =>
    have hidle := Connection.checkReady_eq_ok.mp hready
    cases hplan : plan c.config.numberNamed command.parts with
    | error refused =>
      rw [openCursor_of_unplanned hidle hplan] at h
      cases h
      exact .inl ⟨rfl, .inr rfl⟩
    | ok statements =>
      rw [openCursor_of_planned hidle hplan] at h
      cases hsend : PlannedStatement.sendAll statements c.engine with
      | ok outcomes e =>
        rw [hsend] at h
        cases h
      | error failure e =>
        rw [hsend] at h
        cases h
        exact .inr ⟨statements, e, rfl, hsend, rfl⟩

/-- A walk over the results of a command ends its cursor, whether it succeeds or fails. -/
theorem withCursor_ends {α : Type} {walk : Engine → CursorM α}
    (hwalk : ∀ e, Cursor.Keeps (walk e)) (hopen : command.openCursor c = .ok cursor c') :
    c.phase = .idle ∧
      Effect.Ends (fun c'' => c'' = c.served command.behavior.closeConnection c'.engine)
        Error.OfCursor (command.withCursor walk c) := by
  obtain ⟨hidle, statements, outcomes, e, -, -, hcursor, rfl⟩ := openCursor_eq_ok hopen
  refine ⟨hidle, ?_⟩
  have hserved : ∀ (cursor' : Cursor) disposing, cursor'.frame = cursor.frame →
      (cursor'.finish disposing (c.fetching e)).2 =
        c.served command.behavior.closeConnection e := by
    intro cursor' disposing hframe
    subst hcursor
    rw [Cursor.finish_of_frame rfl hframe, Connection.endCursor_fetching hidle]
  have hkeeps : Effect.Ends _ _ (walk (c.fetching e).engine cursor) := hwalk _ cursor
  unfold withCursor
  rw [hopen]
  dsimp only
  cases hresult : walk (c.fetching e).engine cursor with
  | ok a cursor' => exact hserved cursor' false (hkeeps.of_ok hresult)
  | error err cursor' =>
    obtain ⟨hframe, herr⟩ := hkeeps.of_error hresult
    exact ⟨hserved cursor' true hframe, herr⟩

theorem withCursor_of_error {α : Type} {walk : Engine → CursorM α}
    (h : command.openCursor c = .error err c') : command.withCursor walk c = .error err c' := by
  unfold withCursor
  rw [h]

theorem withCursor_of_ok {α : Type} {walk : Engine → CursorM α} {a : α}
    (hopen : command.openCursor c = .ok cursor c') (hwalk : walk c'.engine cursor = .ok a last) :
    command.withCursor walk c = .ok a (last.close c').2 := by
  unfold withCursor
  rw [hopen]
  dsimp only
  rw [hwalk]

theorem scalar_walk_keeps (e : Engine) :
    Cursor.Keeps (do
      let first ← Cursor.firstValue e
      Cursor.skipAll e
      return first) :=
  (Cursor.firstValue_keeps e).bind fun first =>
    (Cursor.skipAll_keeps e).bind fun _ => Effect.keeps_pure first

theorem nonQuery_walk_keeps (e : Engine) :
    Cursor.Keeps (do
      Cursor.skipAll e
      return (← get).affected) :=
  (Cursor.skipAll_keeps e).bind fun _ _ => rfl

end Command
end SqlSession
