import SqlSession.Proofs.Cursor.CurrentRow
import SqlSession.Proofs.Session.TypeNames

/-!
# Looks at a row that is not there

Whether a row is current can be told from what a cursor has answered: its last move was a `read` that
came to a row (`Session.rowShown`).  The cursor has a current row exactly then, and as long as it has
none, a look at a column of the row is an error about the state (`Session.look_without_row`).  Only to
ask for all values of a result without columns looks at no column, and fails with nothing.
-/

namespace SqlSession

open Effect

/-- The step looks at the current row, at a column by its position or at all columns. -/
inductive CursorStep.LooksAtRow : CursorStep → Prop
  | isNull (i : Nat) : LooksAtRow (.isNull i)
  | value (i : Nat) : LooksAtRow (.value i)
  | values : LooksAtRow .values
  | convert (i : Nat) (target : Target) : LooksAtRow (.convert (.ordinal i) target)
  | convertOptional (i : Nat) (target : Target) : LooksAtRow (.convertOptional (.ordinal i) target)

/-- The scope is a cursor that has columns. -/
def Scope.hasColumns : Scope → Bool
  | .cursor c => !c.fields.isEmpty
  | .transaction _ => false

namespace Session

variable {s s' : Session} {cursor : Cursor} {outer scopes : List Scope} {reply : Except Error Reply}

/-! ## What a caller knows -/

/-- Whether a row is current after an event, if that was so before it. -/
def Event.rowShown (shown : Bool) (ev : Event) : Bool :=
  match ev.step, ev.reply with
  | .cursor .read, .ok (.flag shown) => shown
  | .cursor .read, _ => false
  | .cursor .nextResult, _ | .cursor .drain, _ | .cursor .close, _ | .cursor .dispose, _ => false
  | .connection (.openCursor _), _ => false
  | _, _ => shown

/-- Whether a row is current after these events: the last move of the cursor was a `read` that came to
a row. -/
def rowShown (events : List Event) : Bool := events.foldl Event.rowShown false

theorem rowShown_concat (events : List Event) (ev : Event) :
    rowShown (events ++ [ev]) = ev.rowShown (rowShown events) := by
  unfold rowShown
  rw [List.foldl_append]
  rfl

/-! ## What a cursor knows -/

/-- The cursors have a current row, or have none. -/
def Shows (shown : Bool) (scopes : List Scope) : Prop :=
  ∀ cursor, .cursor cursor ∈ scopes → cursor.Seats shown

theorem shows_of_noCursor {shown : Bool} (h : NoCursor scopes) : Shows shown scopes :=
  fun cursor hmem => absurd hmem (h cursor)

theorem shows_cons {shown : Bool} (h : cursor.Seats shown) (hnested : NoCursor outer) :
    Shows shown (.cursor cursor :: outer) := by
  intro other hmem
  obtain hfirst | hrest := List.mem_cons.mp hmem
  · cases hfirst
    exact h
  · exact absurd hrest (hnested other)

theorem shows_connectionStep {shown : Bool} (h : NoCursor s.scopes) (step : ConnectionStep) :
    Shows (Event.rowShown shown ⟨s, .connection step, reply, s'⟩) (s.connectionStep step).2.scopes := by
  cases step
  case openCursor command =>
    show Shows false (enter _ _ _).2.scopes
    unfold enter
    cases hopen : command.openCursor s.connection with
    | error err c => exact shows_of_noCursor h
    | ok cursor c =>
      obtain ⟨-, statements, outcomes, e, -, -, rfl, -⟩ := Command.openCursor_eq_ok hopen
      exact shows_cons (Cursor.seats_of_none rfl rfl) h
  case begin level =>
    show Shows shown (enter _ _ _).2.scopes
    unfold enter
    cases Transaction.start level s.connection with
    | error err c => exact shows_of_noCursor h
    | ok t c => exact shows_of_noCursor (noCursor_transaction.mpr h)
  case openUp | loadTypes | resolveType | send | scalar | nonQuery =>
    show Shows shown (onConnection _ _ _).2.scopes
    rw [onConnection_eq]
    exact shows_of_noCursor h
  all_goals exact shows_of_noCursor h

theorem shows_transactionStep {shown : Bool} {t : Transaction}
    (hinner : s.scopes = .transaction t :: outer) (h : NoCursor outer) (step : TransactionStep) :
    Shows shown (s.transactionStep outer t step).2.scopes := by
  cases step
  case commit | rollback | drop | leak =>
    show Shows shown (leave _ _ _ _).2.scopes
    unfold leave
    rw [onConnection_eq]
    exact shows_of_noCursor h
  case save | release | rollbackTo =>
    show Shows shown (onConnection _ _ _).2.scopes
    rw [onConnection_eq, hinner]
    exact shows_of_noCursor (noCursor_transaction.mpr h)

/-- The answer to a cursor step tells whether the cursor has a current row afterwards. -/
theorem shows_cursorStep {shown : Bool} (hinner : s.scopes = .cursor cursor :: outer)
    (hnested : NoCursor outer) (h : cursor.Seats shown) (step : CursorStep) :
    Shows (Event.rowShown shown ⟨s, .cursor step, (s.cursorStep outer cursor step).1, s'⟩)
      (s.cursorStep outer cursor step).2.scopes := by
  have hsame : Shows shown s.scopes := by
    rw [hinner]
    exact shows_cons h hnested
  cases step
  case nextResult =>
    have hmove := @Cursor.nextResult_seats s.connection.engine cursor h.seated
    show Shows false (onCursor _ _ _ _ _).2.scopes
    unfold onCursor
    cases hnext : Cursor.nextResult s.connection.engine cursor with
    | ok result cursor' => exact shows_cons (hmove.of_ok hnext) hnested
    | error err cursor' => exact shows_cons (hmove.of_error hnext).1 hnested
  case read =>
    have hmove := @Cursor.read_seats s.connection.engine cursor h.seated
    unfold cursorStep onCursor
    dsimp only
    cases hread : Cursor.read s.connection.engine cursor with
    | ok row cursor' =>
      rw [hread] at hmove
      exact shows_cons hmove hnested
    | error err cursor' =>
      rw [hread] at hmove
      exact shows_cons hmove hnested
  case drain => exact shows_cons (Cursor.drain_seats h.seated) hnested
  case close => exact shows_cons (Cursor.finish_seats h.seated false _) hnested
  case dispose => exact shows_cons (Cursor.finish_seats h.seated true _) hnested
  case drop | leak => exact shows_of_noCursor hnested
  case typeName i =>
    show Shows shown (onConnection _ _ _).2.scopes
    rw [onConnection_eq]
    exact hsame
  all_goals exact hsame

theorem shows_step? {free : Connection → Prop} {busy : Connection → Cursor → Prop} {shown : Bool}
    (hholds : Holds free busy s) (h : Shows shown s.scopes) {step : Step}
    {result : Except Error Reply × Session} (hstep : s.step? step = some result) :
    Shows (Event.rowShown shown ⟨s, step, result.1, result.2⟩) result.2.scopes := by
  cases takes_of_step? hstep with
  | connection step =>
    obtain hnone | ⟨hnested, hdone⟩ := step?_connection hholds step
    · rw [hnone] at hstep
      cases hstep
    · exact shows_connectionStep hnested step
  | @transaction t outer hinner step =>
    unfold Holds at hholds
    rw [hinner] at hholds
    cases hholds with
    | free hnested _ => exact shows_transactionStep hinner (noCursor_transaction.mp hnested) step
  | @cursor cursor outer hinner step =>
    have hnested : NoCursor outer := by
      unfold Holds at hholds
      rw [hinner] at hholds
      cases hholds with
      | free hnested _ => exact absurd hnested not_noCursor_cursor
      | ended _ hnested _ => exact hnested
      | occupied _ hnested _ => exact hnested
    have hcursor : cursor.Seats shown := h cursor (hinner ▸ List.mem_cons_self)
    exact shows_cursorStep hinner hnested hcursor step

theorem shows_run (settings : List Setting) (config : Config) (steps : List Step) :
    Shows (rowShown ((start settings config).events steps))
      ((start settings config).run steps).scopes := by
  -- The last event decides what is shown, and the session before it is one that has been reached.
  induction steps using List.reverseRecOn with
  | nil => exact shows_of_noCursor noCursor_nil
  | append_singleton steps step ih =>
    have hreached : Reached steps ((start settings config).run steps) := ⟨settings, config, rfl⟩
    have hholds := hreached.holds
    rw [run_append, events_append]
    generalize (start settings config).run steps = s at ih hholds ⊢
    rcases hstep : s.step? step with _ | ⟨reply, s'⟩
    · obtain ⟨hevents, hrun⟩ := events_of_step?_none hstep []
      rw [hevents, hrun, events, List.append_nil]
      exact ih
    · obtain ⟨hevents, hrun⟩ := events_of_step? hstep []
      rw [hevents, hrun, events, rowShown_concat]
      exact shows_step? hholds ih hstep

/-! ## Looks at a row -/

/-- A cursor without a current row answers no look at one, and says why.  To ask for all values is a
look only if there are columns. -/
theorem cursorStep_of_noRow (h : cursor.onRow = false) {look : CursorStep} (hlook : look.LooksAtRow)
    (hcolumns : look = .values → cursor.fields ≠ []) :
    s.cursorStep outer cursor look = (.error (.state cursor.noRow), s) := by
  have hvalue : ∀ i, cursor.value s.connection.engine i = .error (.state cursor.noRow) :=
    Cursor.value_of_noRow h s.connection.engine
  cases hlook with
  | isNull i =>
    have hnull := Cursor.isNull_of_error (cursor.rowField_of_noRow h i)
    show (Reply.flag <$> cursor.isNull i, s) = _
    rw [hnull]
    rfl
  | value i =>
    show (Reply.value <$> cursor.value s.connection.engine i, s) = _
    rw [hvalue]
    rfl
  | values =>
    show (Reply.values <$> cursor.values s.connection.engine, s) = _
    rw [Cursor.values_of_noRow h _ (hcolumns rfl)]
    rfl
  | convert i target =>
    have hfails : cursor.valueAs s.connection.engine target i = .error (.state cursor.noRow) :=
      check_bind_eq_error.mpr (.inl (hvalue i))
    show (cursor.valueAs s.connection.engine target i >>= _, s) = _
    rw [hfails]
    rfl
  | convertOptional i target =>
    have hfails : cursor.valueAsOptional s.connection.engine target i =
        .error (.state cursor.noRow) := check_bind_eq_error.mpr (.inl (hvalue i))
    show (cursor.valueAsOptional s.connection.engine target i >>= _, s) = _
    rw [hfails]
    rfl

/-- What a caller can tell from the answers is what the cursor itself knows. -/
theorem seats_rowShown {settings : List Setting} {config : Config} {steps : List Step}
    (hs : s = (start settings config).run steps) (hinner : s.scopes = .cursor cursor :: outer) :
    cursor.Seats (rowShown ((start settings config).events steps)) := by
  refine shows_run settings config steps cursor ?_
  rw [← hs, hinner]
  exact List.mem_cons_self

/-- As long as no row is current, whatever the cursor has been through, every look at a row is an error
about the state and changes nothing. -/
theorem look_without_row {settings : List Setting} {config : Config} {steps : List Step}
    (hs : s = (start settings config).run steps) (hinner : s.scopes = .cursor cursor :: outer)
    (hnone : rowShown ((start settings config).events steps) = false ∨ cursor.source? = none)
    {look : CursorStep} (hlook : look.LooksAtRow) (hcolumns : look = .values → cursor.fields ≠ []) :
    s.step? (.cursor look) = some (.error (.state cursor.noRow), s) := by
  have hseats := seats_rowShown hs hinner
  have honRow : cursor.onRow = false := by
    rcases hnone with hshown | hsource
    · rw [hseats.onRow_eq, hshown]
    · refine Bool.eq_false_iff.mpr fun hrow => ?_
      have hsome := (hseats.seated.onRow hrow).2
      rw [hsource] at hsome
      cases hsome
  rw [step?_cursor hinner, cursorStep_of_noRow honRow hlook hcolumns]

def twoRowsOfT : List Setting :=
  [.script "t" (.rows [Column.ofType "n" Oid.int4 Facets.undeclared] [[.int 1], [.int 2]])]

def pastFirstRow : List Step := toFirstRow ++ [.cursor .nextResult]

/-- A session with a cursor that has left its first row for the end of the results, with the row still
in its buffers. -/
def behindResults : Session := (start twoRowsOfT {}).run pastFirstRow

/-- The row that has been left is not shown any more. -/
theorem look_without_row_behindResults :
    rowShown ((start twoRowsOfT {}).events pastFirstRow) = false ∧
      ∃ cursor, behindResults.scopes = [.cursor cursor] ∧ cursor.fields ≠ [] ∧
        behindResults.step? (.cursor .values) =
          some (.error (.state cursor.noRow), behindResults) := by
  have hshown : rowShown ((start twoRowsOfT {}).events pastFirstRow) = false := by decide +kernel
  have hcolumns : behindResults.scopes.map Scope.hasColumns = [true] := by decide +kernel
  obtain ⟨scope, hinner, hcolumns⟩ := List.map_eq_singleton_iff.mp hcolumns
  refine ⟨hshown, ?_⟩
  cases scope with
  | transaction t => cases hcolumns
  | cursor cursor =>
    have hfields : cursor.fields ≠ [] := by simpa [Scope.hasColumns] using hcolumns
    exact ⟨cursor, hinner, hfields, look_without_row rfl hinner (.inl hshown) .values fun _ => hfields⟩

def pastEnd : List Step :=
  [.connection .openUp, .connection (.openCursor (.single "DELETE FROM t" [] {})),
    .cursor .nextResult, .cursor .read]

/-- A session with a cursor on the result of a statement without a table, which it has read to the
end. -/
def onDelete : Session := (start [.script "DELETE FROM t" (.command 3)] {}).run pastEnd

/-- Without the columns there is a look that is not refused. -/
theorem not_all_looks_refused :
    ¬ ∀ settings config steps cursor outer look,
        ((start settings config).run steps).scopes = .cursor cursor :: outer →
        rowShown ((start settings config).events steps) = false → look.LooksAtRow →
        ∃ fault s', ((start settings config).run steps).step? (.cursor look) =
          some (.error (.state fault), s') := by
  intro hall
  have hshown : rowShown ((start [.script "DELETE FROM t" (.command 3)] {}).events pastEnd) = false := by
    decide +kernel
  have hanswers : (onDelete.step? (.cursor .values)).any (fun result => result.1.toBool) = true := by
    decide +kernel
  cases hstep : onDelete.step? (.cursor .values) with
  | none =>
    rw [hstep] at hanswers
    cases hanswers
  | some result =>
    cases takes_of_step? hstep with
    | cursor hinner _ =>
      obtain ⟨fault, s', hrefused⟩ := hall _ _ _ _ _ _ hinner hshown .values
      rw [show onDelete.step? _ = _ from hrefused] at hanswers
      cases hanswers

end Session
end SqlSession
