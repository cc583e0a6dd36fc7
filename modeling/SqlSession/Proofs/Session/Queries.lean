import SqlSession.Proofs.Connection.Queries
import SqlSession.Session.Run

/-!
# Steps that are made of queries

Most steps of a session are made of queries, or have nothing to do with the engine at all, and then
they fail with no error of the engine.  The other steps put a new engine in the place of the old one,
begin a transaction or end one (`Step.Ordinary`).
-/

namespace SqlSession

open Effect

variable {α β : Type}

/-! ## Errors of steps -/

/-- The error that an answer tells of. -/
def Reply.error? : Reply → Option Error
  | .drained _ failure => failure
  | .info ⟨_, .error err, _, _⟩ => some err
  | _ => none

/-- The error of a step, whether the step fails with it or answers with it. -/
def Session.error? : Except Error Reply → Option Error
  | .ok reply => reply.error?
  | .error err => some err

/-- The step has no error of the engine. -/
def Session.Harmless (reply : Except Error Reply) : Prop :=
  ∀ err, error? reply = some err → ¬ err.IsDatabase

namespace Session

theorem harmless_ok {reply : Reply} (h : reply.error? = none) : Harmless (.ok reply) := by
  intro err herr
  rw [error?, h] at herr
  cases herr

theorem harmless_bind {x : Except Error α} {f : α → Except Error Reply} (hx : Own x)
    (hf : ∀ a, Harmless (f a)) : Harmless (x >>= f) := by
  cases x with
  | ok a => exact hf a
  | error err =>
    rintro _ ⟨⟩
    exact hx err rfl

theorem harmless_map {x : Except Error α} {f : α → Reply} (hx : Own x)
    (hf : ∀ a, (f a).error? = none) : Harmless (f <$> x) := by
  cases x with
  | ok a => exact harmless_ok (hf a)
  | error err =>
    rintro _ ⟨⟩
    exact hx err rfl

end Session

/-! ## Errors that are not of the engine -/

theorem Version.own_parse (raw : String) : Own (parse raw) := by
  have hnumber : ∀ digits, Own (number raw digits) := by
    intro digits
    unfold number
    split
    · exact failsWith_ok _
    · exact failsWith_error id
  unfold parse
  refine (FailsWith.mapM hnumber).bind fun numbers => ?_
  split
  case h_1 => exact failsWith_error id
  all_goals exact failsWith_ok _

namespace Value

theorem own_within (low high : Int) (target : Target) (v : Int64) :
    Own (within low high target v) := by
  unfold within
  split
  · exact failsWith_ok _
  · exact failsWith_error id

theorem own_as (target : Target) (v : Value) : Own (v.as target) := by
  have hmap : ∀ {β : Type} {low high : Int} {i : Int64} (f : Int64 → β),
      Own (f <$> within low high target i) := fun f => (own_within _ _ _ _).map f
  unfold as
  split
  all_goals first | exact failsWith_ok _ | exact failsWith_error id | exact hmap _ | skip
  all_goals split
  all_goals first | exact failsWith_ok _ | exact failsWith_error id

theorem own_asOptional (target : Target) (v : Value) : Own (v.asOptional target) := by
  unfold asOptional
  split
  · exact failsWith_ok _
  · exact (own_as target v).map _

end Value

namespace Cursor

variable {cursor : Cursor} {e : Engine} {i : Nat} {name : String}

theorem own_field : Own (cursor.field i) := fun _ h => (field_ofCursor h).not_isDatabase

theorem own_value : Own (cursor.value e i) := fun _ h => (value_ofCursor h).not_isDatabase

theorem own_isNull : Own (cursor.isNull i) :=
  FailsWith.bind (fun _ h => (rowField_ofCursor h).not_isDatabase) fun _ => failsWith_ok _

theorem own_values : Own (cursor.values e) := .mapM fun _ => own_value

theorem own_ordinal : Own (cursor.ordinal name) := by
  refine FailsWith.bind (fun _ h => (checkOpen_ofCursor h).not_isDatabase) fun _ => ?_
  split
  · exact failsWith_ok _
  · exact failsWith_error id

theorem own_position {column : ColumnRef} : Own (Session.position cursor column) := by
  cases column with
  | ordinal i => exact failsWith_ok i
  | name name => exact own_ordinal

end Cursor

/-! ## Steps -/

theorem Connection.close_engine (c : Connection) : c.close.engine = c.engine := by
  unfold close
  split <;> rfl

theorem Cursor.finish_engine (cursor : Cursor) (disposing : Bool) (c : Connection) :
    (cursor.finish disposing c).2.engine = c.engine := by
  unfold finish Connection.endCursor
  split
  · rfl
  · split
    · exact Connection.close_engine _
    · rfl

/-- The step leaves the engine in its place, and neither begins nor ends a transaction.  To forget a
transaction does not end it. -/
def Step.Ordinary : Step → Prop
  | .connection (.replace _ _) => False
  | .connection (.begin _) => False
  | .transaction (.save _) | .transaction (.release _) | .transaction (.rollbackTo _) => True
  | .transaction .leak => True
  | .transaction _ => False
  | _ => True

namespace Session

/-- The ways in which a step is taken: with the connection, or with the innermost scope. -/
inductive Takes (s : Session) : Step → Except Error Reply × Session → Prop
  | connection (step : ConnectionStep) : Takes s (.connection step) (s.connectionStep step)
  | transaction {t : Transaction} {outer : List Scope} (inner : s.scopes = .transaction t :: outer)
      (step : TransactionStep) : Takes s (.transaction step) (s.transactionStep outer t step)
  | cursor {cursor : Cursor} {outer : List Scope} (inner : s.scopes = .cursor cursor :: outer)
      (step : CursorStep) : Takes s (.cursor step) (s.cursorStep outer cursor step)

theorem takes_of_step? {s : Session} {step : Step} {result : Except Error Reply × Session}
    (h : s.step? step = some result) : Takes s step result := by
  obtain ⟨c, scopes⟩ := s
  cases step with
  | connection step =>
    obtain _ | ⟨cursor | t, outer⟩ := scopes <;> cases h
    · exact .connection step
    · exact .connection step
  | transaction step =>
    obtain _ | ⟨cursor | t, outer⟩ := scopes <;> cases h
    exact .transaction rfl step
  | cursor step =>
    obtain _ | ⟨cursor | t, outer⟩ := scopes <;> cases h
    exact .cursor rfl step

/-- A step that ends like this is in the relation. -/
def Goes (R : EngineRel) (s : Session) (result : Except Error Reply × Session) : Prop :=
  R s.connection.engine (error? result.1) result.2.connection.engine

variable {R : EngineRel} {s : Session}

theorem goes_onConnection {reply : α → Reply} {work : ConnectionM α}
    (h : Relates R Connection.engine work) (hreply : ∀ a, (reply a).error? = none) :
    s.Goes R (s.onConnection reply work) := by
  unfold onConnection Goes
  cases hwork : work s.connection with
  | ok a c =>
    dsimp only [error?]
    rw [hreply a]
    exact h.of_ok hwork
  | error err c => exact h.of_error hwork

theorem goes_enter {scope : α → Scope} {work : ConnectionM α}
    (h : Relates R Connection.engine work) : s.Goes R (s.enter scope work) := by
  unfold enter Goes
  cases hwork : work s.connection with
  | ok a c => exact h.of_ok hwork
  | error err c => exact h.of_error hwork

end Session

namespace EngineRel.OfQueries

open Session

variable {R : EngineRel} (hR : EngineRel.OfQueries R) (s : Session)
include hR

theorem goes_harmless {reply : Except Error Reply} {s' : Session} (h : Harmless reply)
    (hengine : s'.connection.engine = s.connection.engine) : s.Goes R (reply, s') := by
  unfold Goes
  rw [hengine]
  cases herr : error? reply with
  | none => exact hR.refl _
  | some err => exact hR.refused _ (h err herr)

/-- A step that only answers. -/
theorem goes_ok {reply : Reply} {s' : Session} (hreply : reply.error? = none)
    (hengine : s'.connection.engine = s.connection.engine) : s.Goes R (.ok reply, s') :=
  hR.goes_harmless s (harmless_ok hreply) hengine

/-- A step that answers with the result of a check. -/
theorem goes_check {x : Except Error α} {f : α → Reply} (h : Own x)
    (hreply : ∀ a, (f a).error? = none) : s.Goes R (f <$> x, s) :=
  hR.goes_harmless s (harmless_map h hreply) rfl

theorem goes_onCursor {outer : List Scope} {cursor : Cursor} {reply : α → Reply} {work : CursorM α}
    (h : Cursor.Keeps work) (hreply : ∀ a, (reply a).error? = none) :
    s.Goes R (s.onCursor outer cursor reply work) := by
  have hkeeps : Ends _ Error.OfCursor (work cursor) := h cursor
  unfold onCursor
  cases hwork : work cursor with
  | ok a cursor' => exact hR.goes_ok s (hreply a) rfl
  | error err cursor' =>
    refine hR.goes_harmless s ?_ rfl
    rintro _ ⟨⟩
    exact (hkeeps.of_error hwork).2.not_isDatabase

theorem goes_cursorStep (outer : List Scope) (cursor : Cursor) (step : CursorStep) :
    s.Goes R (s.cursorStep outer cursor step) := by
  -- Only the name of a type asks the engine for anything, everything else reads what is there.
  cases step
  case nextResult => exact hR.goes_onCursor s (Cursor.nextResult_keeps _) fun _ => rfl
  case read => exact hR.goes_onCursor s (Cursor.read_keeps _) fun _ => rfl
  case fieldCount => exact hR.goes_ok s rfl rfl
  case fields => exact hR.goes_ok s rfl rfl
  case name i => exact hR.goes_check s Cursor.own_field fun _ => rfl
  case typeOid i => exact hR.goes_check s Cursor.own_field fun _ => rfl
  case typeName i => exact goes_onConnection (hR.typeName cursor i) fun _ => rfl
  case ordinal name => exact hR.goes_check s Cursor.own_ordinal fun _ => rfl
  case isNull i => exact hR.goes_check s Cursor.own_isNull fun _ => rfl
  case value i => exact hR.goes_check s Cursor.own_value fun _ => rfl
  case values => exact hR.goes_check s Cursor.own_values fun _ => rfl
  case convert column target =>
    refine hR.goes_harmless s (harmless_bind Cursor.own_position fun i => ?_) rfl
    exact harmless_bind (Cursor.own_value.bind (Value.own_as target)) fun _ => harmless_ok rfl
  case convertOptional column target =>
    refine hR.goes_harmless s (harmless_bind Cursor.own_position fun i => ?_) rfl
    exact harmless_bind (Cursor.own_value.bind (Value.own_asOptional target)) fun _ =>
      harmless_ok rfl
  case takeCursorEnd => exact hR.goes_ok s rfl rfl
  case drain =>
    refine hR.goes_harmless s ?_ rfl
    intro err herr
    have hstops : (cursor.drain s.connection.engine).2.1 = some err := herr
    exact (Cursor.readResults_ofCursor hstops).not_isDatabase
  case close => exact hR.goes_ok s rfl (cursor.finish_engine false _)
  case dispose => exact hR.goes_ok s rfl (cursor.finish_engine true _)
  case drop => exact hR.goes_ok s rfl (cursor.finish_engine true _)
  case leak => exact hR.goes_ok s rfl rfl

/-- A change of the settings is not made of queries, so it is left to the relation. -/
theorem goes_connectionStep {step : ConnectionStep} (h : Step.Ordinary (.connection step))
    (hconfigure : ∀ setting, step = .configure setting →
      R s.connection.engine none (s.connection.engine.configure setting)) :
    s.Goes R (s.connectionStep step) := by
  cases step
  case openUp => exact goes_onConnection hR.openUp fun _ => rfl
  case close => exact hR.goes_ok s rfl s.connection.close_engine
  case describe =>
    refine hR.goes_harmless s ?_ rfl
    cases hversion : s.connection.version with
    | ok version => exact harmless_ok rfl
    | error err =>
      rintro _ ⟨⟩
      exact Version.own_parse _ err hversion
  case configure setting => exact hconfigure setting rfl
  case replace settings config => exact h.elim
  case takeCursorEnd => exact hR.goes_ok s rfl rfl
  case executedQueries => exact hR.goes_ok s rfl rfl
  case loadTypes =>
    refine goes_onConnection ?_ fun _ => rfl
    exact hR.bind (Connection.relates_onRegistry hR.ensureLoaded) fun _ =>
      hR.bind hR.get fun _ => hR.pure _
  case lookupType oid => exact hR.goes_ok s rfl rfl
  case resolveType oid =>
    exact goes_onConnection (Connection.relates_onRegistry (hR.resolve oid)) fun _ => rfl
  case send statements =>
    exact goes_onConnection (Connection.relates_onEngine (hR.sendAll statements)) fun _ => rfl
  case openCursor command => exact goes_enter (hR.openCursor command)
  case scalar command =>
    exact goes_onConnection (hR.withCursor command Command.scalar_walk_keeps) fun _ => rfl
  case nonQuery command =>
    exact goes_onConnection (hR.withCursor command Command.nonQuery_walk_keeps) fun _ => rfl
  case begin level => exact h.elim

theorem goes_transactionStep {outer : List Scope} {t : Transaction} {step : TransactionStep}
    (h : Step.Ordinary (.transaction step)) : s.Goes R (s.transactionStep outer t step) := by
  cases step
  case save name => exact goes_onConnection (hR.onSavepoint _ name) fun _ => rfl
  case release name => exact goes_onConnection (hR.onSavepoint _ name) fun _ => rfl
  case rollbackTo name => exact goes_onConnection (hR.onSavepoint _ name) fun _ => rfl
  case leak => exact hR.goes_ok s rfl rfl
  all_goals exact h.elim

end EngineRel.OfQueries

/-- An ordinary step is work that is made of queries. -/
theorem EngineRel.Closed.goes_ordinary {R : EngineRel} (hR : EngineRel.Closed R) (s : Session)
    {step : Step} {result : Except Error Reply × Session} (h : step.Ordinary)
    (hstep : s.step? step = some result) : s.Goes R result := by
  cases Session.takes_of_step? hstep with
  | connection step => exact hR.goes_connectionStep s h fun setting _ => hR.configure _ setting
  | transaction _ step => exact hR.goes_transactionStep s h
  | cursor _ step => exact hR.goes_cursorStep s _ _ step

end SqlSession
