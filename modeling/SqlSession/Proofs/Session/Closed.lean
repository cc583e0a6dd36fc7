import SqlSession.Proofs.Session.Completion
import SqlSession.Proofs.Session.Standing

/-!
# Closed connections

A closed connection refuses to execute a command and to begin a transaction.  Statements about
savepoints are sent all the same, because they do not ask the connection whether it is open, and they
are the only statements that a closed connection sends (`Session.Reached.closed_sends`).
-/

namespace SqlSession

open Effect Engine

/-- The call brings a statement to the engine. -/
def Call.sends : Call → Bool
  | prepare _ _ | executePlan _ _ _ | execute _ _ => true
  | commit | rollback => false

/-- The step turns to the engine behind the back of the connection. -/
def Step.Direct : Step → Prop
  | .connection .loadTypes | .connection (.resolveType _) | .connection (.send _) => True
  | _ => False

/-- The step is one that a connection has to be ready for. -/
def ConnectionStep.NeedsReady (attempt : ConnectionStep) : Prop :=
  (∃ command, attempt.Executes command) ∨ ∃ level, attempt = .begin level

/-- The step sends a statement about a savepoint with this name. -/
def Step.SendsSavepoint (step : Step) : Prop :=
  ∃ step' words name quoted, step = .transaction step' ∧
    step'.savepoint? = some (words, name) ∧ Savepoint.quote name = .ok quoted

theorem Cursor.typeName_of_closed {cursor : Cursor} (h : cursor.isClosed = true) (i : Nat)
    (c : Connection) : cursor.typeName i c = .error (.state .cursorClosed) c := by
  refine typeName_of_error ?_ c
  unfold field checkOpen
  rw [if_pos h]
  rfl

namespace Session

variable {s s' : Session} {step : Step} {reply : Except Error Reply}

theorem Event.calls_of_same (h : s'.connection.engine.calls = s.connection.engine.calls) :
    Event.calls ⟨s, step, reply, s'⟩ = [] := by
  unfold Event.calls
  rw [h, ← Array.length_toList, List.drop_length]

theorem Event.calls_of_empty (h : s'.connection.engine.calls = #[]) :
    Event.calls ⟨s, step, reply, s'⟩ = [] := by
  unfold Event.calls
  rw [h]
  exact List.drop_nil

/-- A closed connection refuses what it would have to be ready for, and nothing changes. -/
theorem connectionStep_of_closed (hclosed : s.connection.phase = .closed) {attempt : ConnectionStep}
    (h : attempt.NeedsReady) : s.connectionStep attempt = (.error (.state .notOpen), s) := by
  have hbusy : s.connection.checkReady = .error (.state .notOpen) := by
    unfold Connection.checkReady
    rw [hclosed]
  obtain ⟨command, hexecutes⟩ | ⟨level, rfl⟩ := h
  · have hopen : command.openCursor s.connection = .error (.state .notOpen) s.connection :=
      Command.openCursor_of_busy hbusy
    cases hexecutes with
    | openCursor =>
      show enter _ _ _ = _
      unfold enter
      rw [hopen]
    | scalar =>
      show onConnection _ _ _ = _
      rw [onConnection_eq, Command.scalar, Command.withCursor_of_error hopen]
      rfl
    | nonQuery =>
      show onConnection _ _ _ = _
      rw [onConnection_eq, Command.nonQuery, Command.withCursor_of_error hopen]
      rfl
  · show enter _ _ _ = _
    unfold enter
    rw [Transaction.start_eq, hbusy]

/-- A step with a closed connection makes no call, unless it goes behind its back. -/
theorem calls_connectionStep_of_closed (hclosed : s.connection.phase = .closed)
    {attempt : ConnectionStep} (hthrough : ¬ Step.Direct (.connection attempt)) :
    Event.calls ⟨s, step, reply, (s.connectionStep attempt).2⟩ = [] := by
  by_cases hneeds : attempt.NeedsReady
  · rw [connectionStep_of_closed hclosed hneeds]
    exact Event.calls_of_same rfl
  cases attempt
  case openUp =>
    refine Event.calls_of_same ?_
    show (onConnection _ _ _).2.connection.engine.calls = _
    rw [onConnection_eq]
    show (final (Connection.openUp s.connection)).engine.calls = _
    unfold Connection.openUp
    split <;> rfl
  case close => exact Event.calls_of_same (congrArg Engine.calls s.connection.close_engine)
  case configure setting => exact Event.calls_of_same (configure_calls _ setting)
  case replace settings config => exact Event.calls_of_empty (ofSettings_calls settings)
  case describe | takeCursorEnd | executedQueries | lookupType => exact Event.calls_of_same rfl
  case loadTypes | resolveType | send => exact absurd trivial hthrough
  case openCursor command => exact absurd (.inl ⟨command, .openCursor⟩) hneeds
  case scalar command => exact absurd (.inl ⟨command, .scalar⟩) hneeds
  case nonQuery command => exact absurd (.inl ⟨command, .nonQuery⟩) hneeds
  case begin level => exact absurd (.inr ⟨level, rfl⟩) hneeds

/-- A step with a cursor makes no call once the cursor has ended. -/
theorem calls_cursorStep_of_closed {cursor : Cursor} (hended : cursor.isClosed = true)
    (outer : List Scope) (step' : CursorStep) :
    Event.calls ⟨s, step, reply, (s.cursorStep outer cursor step').2⟩ = [] := by
  refine Event.calls_of_same ?_
  cases step'
  case typeName i =>
    show (onConnection _ _ _).2.connection.engine.calls = _
    rw [onConnection_eq, cursor.typeName_of_closed hended]
    rfl
  case nextResult | read =>
    show (onCursor _ _ _ _ _).2.connection.engine.calls = _
    unfold onCursor
    split <;> rfl
  case close => exact congrArg Engine.calls (cursor.finish_engine false _)
  case dispose | drop => exact congrArg Engine.calls (cursor.finish_engine true _)
  all_goals rfl

/-- The cursors of a session whose connection is closed have ended. -/
theorem Reached.isClosed_of_closed {steps : List Step} (h : Reached steps s)
    (hclosed : s.connection.phase = .closed) {cursor : Cursor} (hmem : .cursor cursor ∈ s.scopes) :
    cursor.isClosed = true := by
  obtain ⟨_, phase, hstands, -, hfetching, -⟩ := holds_stands h.holds
  by_contra hopen
  have hphase := hfetching ⟨cursor, hmem, Bool.eq_false_iff.mpr hopen⟩
  rw [← hstands.phase_eq, hclosed] at hphase
  cases hphase

theorem savepointCalls_sends_iff {words name : String} :
    (∃ call ∈ Transaction.savepointCalls words name, call.sends = true) ↔
      ∃ quoted, Savepoint.quote name = .ok quoted := by
  unfold Transaction.savepointCalls
  cases Savepoint.quote name with
  | error err => simp
  | ok quoted => simp [Call.sends]

/-- Transactions send nothing but statements about savepoints. -/
theorem Event.sends_transaction_iff {ev : Event} (h : ev.Accounted) {step' : TransactionStep}
    (hstep : ev.step = .transaction step') :
    (∃ call ∈ ev.calls, call.sends = true) ↔ ev.step.SendsSavepoint := by
  obtain ⟨before, step, reply, after⟩ := ev
  obtain rfl := hstep
  have hturn : Turn before (.transaction step') reply _ after := h.turn
  generalize Event.calls _ = calls at hturn ⊢
  have hends : step'.savepoint? = none → (∀ call ∈ calls, call.sends = false) →
      ((∃ call ∈ calls, call.sends = true) ↔ Step.SendsSavepoint (.transaction step')) := by
    intro hnone hcalls
    refine iff_of_false ?_ ?_
    · rintro ⟨call, hcall, hsends⟩
      rw [hcalls call hcall] at hsends
      cases hsends
    · rintro ⟨_, _, _, _, heq, hsome, -⟩
      cases heq
      rw [hnone] at hsome
      cases hsome
  cases hturn with
  | committed ends => exact hends rfl (List.forall_mem_singleton.mpr rfl)
  | rolledBack ends => exact hends rfl (List.forall_mem_singleton.mpr rfl)
  | dropped ends => exact hends rfl (List.forall_mem_singleton.mpr rfl)
  | leaked ends => exact hends rfl (List.forall_mem_nil _)
  | savepoint savepoint same =>
    rw [savepointCalls_sends_iff]
    constructor
    · rintro ⟨quoted, hquoted⟩
      exact ⟨step', _, _, quoted, rfl, savepoint, hquoted⟩
    · rintro ⟨_, _, _, quoted, heq, hsome, hquoted⟩
      cases heq
      cases savepoint.symm.trans hsome
      exact ⟨quoted, hquoted⟩
  | other _ elsewhere _ _ => exact absurd rfl (elsewhere _)

/-- Steps with a closed connection and steps with a cursor on it make no call. -/
theorem Reached.calls_of_closed {steps : List Step} (h : Reached steps s)
    (hclosed : s.connection.phase = .closed) {result : Except Error Reply × Session}
    (htakes : Takes s step result) (hthrough : ¬ step.Direct)
    (helsewhere : ∀ step', step ≠ .transaction step') :
    Event.calls ⟨s, step, result.1, result.2⟩ = [] := by
  cases htakes with
  | connection attempt => exact calls_connectionStep_of_closed hclosed hthrough
  | transaction _ step' => exact absurd rfl (helsewhere step')
  | cursor hinner step' =>
    refine calls_cursorStep_of_closed (h.isClosed_of_closed hclosed ?_) _ step'
    rw [hinner]
    exact List.mem_cons_self

/-- While its connection is closed, a session sends nothing but statements about savepoints, whether the
connection has been closed by a caller or by the end of a cursor, inside of transactions or not.  To
execute a command and to begin a transaction is refused with an error about the state, and changes
nothing. -/
theorem Reached.closed_sends {steps : List Step} (h : Reached steps s)
    (hclosed : s.connection.phase = .closed) (hstep : s.step? step = some (reply, s'))
    (hthrough : ¬ step.Direct) :
    ((∃ call ∈ Event.calls ⟨s, step, reply, s'⟩, call.sends = true) ↔ step.SendsSavepoint) ∧
      ∀ attempt, step = .connection attempt → attempt.NeedsReady →
        reply = .error (.state .notOpen) ∧ s' = s := by
  constructor
  · by_cases helsewhere : ∀ step', step ≠ .transaction step'
    · rw [h.calls_of_closed hclosed (takes_of_step? hstep) hthrough helsewhere]
      refine iff_of_false (by simp) ?_
      rintro ⟨step', _, _, _, heq, -⟩
      exact helsewhere step' heq
    · obtain ⟨step', hstep'⟩ := not_forall_not.mp helsewhere
      obtain ⟨settings, config, rfl⟩ := h
      exact Event.sends_transaction_iff (Event.accounted_of_step? (live_run _ steps) hstep) hstep'
  · rintro attempt rfl hneeds
    obtain hnone | ⟨-, hdone⟩ := step?_connection h.holds attempt
    · rw [hnone] at hstep
      cases hstep
    · rw [hdone, connectionStep_of_closed hclosed hneeds] at hstep
      cases hstep
      exact ⟨rfl, rfl⟩

/-- A session whose connection has been closed inside a transaction. -/
def closedInside : Session :=
  (start [.script "SAVEPOINT a" (.command 0),
      .script "SET TRANSACTION ISOLATION LEVEL READ COMMITTED" (.command 0)] {}).run
    [.connection .openUp, .connection (.begin .unspecified), .connection .close]

theorem reached_closedInside :
    Reached [.connection .openUp, .connection (.begin .unspecified), .connection .close]
      closedInside := ⟨_, _, rfl⟩

theorem closedInside_closed : closedInside.connection.phase = .closed := by decide +kernel

/-- A command is refused on a connection that has been closed inside a transaction. -/
theorem Reached.closed_sends_inside :
    closedInside.connection.phase = .closed ∧
      ∃ reply s', closedInside.step? (.connection (.nonQuery (.single "DELETE FROM t" [] {}))) =
          some (reply, s') ∧
        reply = .error (.state .notOpen) ∧ s' = closedInside := by
  have hclosed := closedInside_closed
  obtain hnone | ⟨-, hdone⟩ := step?_connection reached_closedInside.holds
    (.nonQuery (.single "DELETE FROM t" [] {}))
  · have hsome : (closedInside.step? (.connection (.nonQuery (.single "DELETE FROM t" [] {})))).isSome
        = true := by decide +kernel
    rw [hnone] at hsome
    cases hsome
  · refine ⟨hclosed, _, _, hdone, ?_⟩
    exact (reached_closedInside.closed_sends hclosed hdone id).2 _ rfl (.inl ⟨_, .nonQuery⟩)

/-- A statement can be sent while the connection is closed. -/
theorem not_all_closed_quiet :
    ¬ ∀ (steps : List Step) (s s' : Session) (step : Step) (reply : Except Error Reply),
      Reached steps s → s.connection.phase = .closed → s.step? step = some (reply, s') →
      ¬ step.Direct → ∀ call ∈ Event.calls ⟨s, step, reply, s'⟩, call.sends = false := by
  intro hall
  have hsends : (closedInside.step? (.transaction (.save "a"))).any (fun result =>
      (Event.calls ⟨closedInside, .transaction (.save "a"), result.1, result.2⟩).any Call.sends) =
        true := by decide +kernel
  cases hstep : closedInside.step? (.transaction (.save "a")) with
  | none =>
    rw [hstep] at hsends
    cases hsends
  | some result =>
    obtain ⟨reply, s'⟩ := result
    rw [hstep] at hsends
    obtain ⟨call, hcall, hsent⟩ := List.any_eq_true.mp hsends
    have hquiet := hall _ _ _ _ _ reached_closedInside closedInside_closed hstep id call hcall
    rw [hquiet] at hsent
    cases hsent

end Session
end SqlSession
