import SqlSession.Proofs.Engine.Records
import SqlSession.Proofs.Session.Queries

/-!
# Error records are given up once

Whatever is done with an engine stops at the first native call that fails, and gives up the record of
this call and no other (`Engine.Disposes`).  The error of the work shows this record, and an error that
shows another one does not go with the same engines (`Disposes.unique`).  So no record is outstanding
between two operations of a run, and the records of a run are given up in the order in which they are
raised (`Engine.Cleared`).
-/

namespace SqlSession

open Effect

namespace Engine

/-- What work has done with records.  Either all its native calls have succeeded, and the work has no
error of the engine.  Or one has failed behind those that have succeeded and has raised a record, the
error of the work shows this record, and all that came after the call is to give the record up. -/
inductive Disposes (e : Engine) : Option Error → Engine → Prop
  | clean {failure : Option Error} {e' : Engine} (works : Works e e') (steady : Steady e e')
      (own : ∀ err, failure = some err → ¬ err.IsDatabase) : Disposes e failure e'
  | failed {e₁ e₂ : Engine} {call : Call} {h : RecordHandle} {r : ErrorRecord} {d : DatabaseError}
      (works : Works e e₁) (steady : Steady e e₁) (fails : Fails e₁ h e₂)
      (raises : RaisesFor e₁ call h r e₂) (shows : d.Shows r) :
      Disposes e (some (.database d)) (e₂.release h)

theorem Disposes.of_works {e e' : Engine} (h : Works e e') : Disposes e none e' :=
  .clean h h.steady fun _ hnone => nomatch hnone

theorem Disposes.of_none {e e' : Engine} (h : Disposes e none e') : Works e e' := by
  cases h with
  | clean works _ _ => exact works

/-- Work that goes on after a success has seen no record. -/
theorem Disposes.after {e e' e'' : Engine} {failure : Option Error} (hworks : Works e e')
    (h : Disposes e' failure e'') : Disposes e failure e'' := by
  cases h with
  | clean works _ own =>
    have hall : Works e e'' := hworks.trans works
    exact .clean hall hall.steady own
  | @failed e₁ _ _ _ _ _ works _ fails raises shows =>
    have hall : Works e e₁ := hworks.trans works
    exact .failed hall hall.steady fails raises shows

/-- A failure gives up one record.  It is the one that the engine had for the last call in the log before
any of the work was done. -/
theorem Disposes.shown {e e' : Engine} {d : DatabaseError} (h : Disposes e (some (.database d)) e') :
    (∃ handle, e'.releases = e.releases.push handle) ∧
      ∃ call r, e'.calls.back? = some call ∧ e.recordFor? call = some r ∧ d.Shows r := by
  cases h with
  | clean _ _ own => exact absurd trivial (own _ rfl)
  | @failed e₁ e₂ call handle r _ works steady fails raises shows =>
    constructor
    · refine ⟨handle, ?_⟩
      rw [raises.raised.release.2, steady.same.2]
    · refine ⟨call, r, ?_, ?_, shows⟩
      · show e₂.calls.back? = some call
        rw [raises.logged, Array.back?_push]
      · rw [← steady.alike.recordFor?]
        exact raises.record

/-- The engines before and after tell which error of the engine there was. -/
theorem Disposes.unique {e e' : Engine} {d d' : DatabaseError}
    (h : Disposes e (some (.database d)) e') (h' : Disposes e (some (.database d')) e') : d = d' := by
  obtain ⟨-, call, r, hcall, hrecord, hshows⟩ := h.shown
  obtain ⟨-, call', r', hcall', hrecord', hshows'⟩ := h'.shown
  cases hcall.symm.trans hcall'
  cases hrecord.symm.trans hrecord'
  rw [hshows.eq_ofRecord, hshows'.eq_ofRecord]

theorem configure_sameRecords (e : Engine) (setting : Setting) :
    SameRecords e (e.configure setting) := by
  cases setting <;> exact ⟨rfl, rfl⟩

theorem ofSettings_sameRecords (settings : List Setting) :
    SameRecords initial (ofSettings settings) := by
  have hfold : ∀ e : Engine, SameRecords e (settings.foldl configure e) := by
    induction settings with
    | nil => exact fun _ => ⟨rfl, rfl⟩
    | cons setting settings ih => exact fun e => (configure_sameRecords e setting).trans (ih _)
  exact hfold initial

end Engine

namespace Request

open Engine

/-- A request gives up the record that its native call raises. -/
theorem guarded_disposes {α : Type} {call : Native α}
    (hsucceeds : ∀ {e a e'}, call e = .ok a e' → Succeeds e e')
    (hfails : ∀ {e h e'}, call e = .error h e' → Fails e h e') :
    Relates Disposes id (guarded call) := by
  intro e
  unfold guarded
  cases hcall : call e with
  | ok a e' => exact .of_works (.single (hsucceeds hcall))
  | error h e₁ =>
    have hfailed := hfails hcall
    obtain ⟨call, r, hraises⟩ := hfailed.raisesFor
    refine .failed .refl ⟨⟨rfl, rfl⟩, .refl e⟩ hfailed hraises ?_
    rw [hraises.raised.record]
    exact DatabaseError.shows_ofRecord r

theorem outcome_disposes {call : Native (Option TableHandle)}
    (hsucceeds : ∀ {e a e'}, call e = .ok a e' → Succeeds e e')
    (hfails : ∀ {e h e'}, call e = .error h e' → Fails e h e') :
    Relates Disposes id (outcome call) := by
  intro e
  have hguarded := guarded_disposes hsucceeds hfails e
  unfold outcome
  rw [bind_apply]
  cases hcall : guarded call e with
  | ok t e' =>
    rw [hcall] at hguarded
    exact hguarded
  | error err e' =>
    rw [hcall] at hguarded
    exact hguarded

end Request

open Engine

theorem Engine.ofQueries_disposes : EngineRel.OfQueries Disposes where
  refl _ := .of_works .refl
  refused e _ h := .clean .refl ⟨⟨rfl, rfl⟩, .refl e⟩ fun _ heq => Option.some.inj heq ▸ h
  trans h h' := h'.after h.of_none
  stores h := .of_works (.single (.stores h))
  prepare _ _ := Request.guarded_disposes .prepare .prepare
  executePlan _ _ _ := Request.outcome_disposes .executePlan .executePlan
  execute _ _ := Request.outcome_disposes .execute .execute

theorem Request.commit_disposes : Relates Disposes id Request.commit :=
  guarded_disposes .commit .commit

theorem Request.rollback_disposes : Relates Disposes id Request.rollback :=
  guarded_disposes .rollback .rollback

namespace Transaction

theorem start_disposes (level : IsolationLevel) :
    Relates Disposes Connection.engine (start level) := by
  have hR := ofQueries_disposes
  exact hR.bind hR.get fun c => hR.bind (hR.ofExcept c.own_checkReady) fun _ =>
    hR.bind (hR.ofExcept (IsolationLevel.own_sql _)) fun sql =>
      hR.bind (Connection.relates_onEngine Request.commit_disposes) fun _ =>
        hR.bind (Connection.relates_onEngine (hR.execute _ false)) fun _ => hR.pure _

/-- A transaction is let go without an error, also if the rollback has failed. -/
theorem drop_disposes (t : Transaction) (c : Connection) :
    ∃ hidden, Disposes c.engine hidden (t.drop c).engine := by
  have hrollback := Connection.relates_onEngine Request.rollback_disposes
  unfold drop
  split
  · exact ⟨none, ofQueries_disposes.refl c.engine⟩
  · cases hresult : Connection.onEngine Request.rollback c with
    | ok done c' => exact ⟨none, hrollback.of_ok hresult⟩
    | error err c' => exact ⟨some err, hrollback.of_error hresult⟩

theorem complete_disposes {request : EngineM Unit} (h : Relates Disposes id request)
    (t : Transaction) : Relates Disposes Connection.engine (t.complete request) := by
  intro c
  have hrequest := Connection.relates_onEngine h
  unfold complete
  cases hresult : Connection.onEngine request c with
  | ok done c' => exact hrequest.of_ok hresult
  | error err c' => exact hrequest.of_error hresult

end Transaction

namespace Session

/-! ## Operations -/

/-- Anything that can be asked of an engine: a step of the session that is on it, a request without a
session, or the types for a registry without a connection. -/
inductive Operation
  | step (step : Step)
  | prepare (query : String) (types : List Oid)
  | executePlan (plan : PlanHandle) (arguments : List Datum) (markers : List Char)
  | execute (query : String) (readOnly : Bool)
  | commit
  | rollback
  | ensureLoaded (r : Registry)
  | resolve (r : Registry) (oid : Oid)

def withEngine (s : Session) (e : Engine) : Session :=
  { s with connection := { s.connection with engine := e } }

/-- A request to the engine of a session behind its back. -/
def request (s : Session) {α : Type} (work : EngineM α) : Option Error × Session :=
  let result := work s.connection.engine
  (failure? result, s.withEngine (final result))

/-- The types of the engine of a session for another registry. -/
def load (s : Session) {α : Type} (r : Registry) (work : EStateM Error (Registry × Engine) α) :
    Option Error × Session :=
  let result := work (r, s.connection.engine)
  (failure? result, s.withEngine (final result).2)

/-- The error of an operation and the session after it.  A step that is not for the innermost scope is
not performed. -/
def perform? (s : Session) : Operation → Option (Option Error × Session)
  | .step step => (s.step? step).map fun result => (error? result.1, result.2)
  | .prepare query types => some (s.request (Request.prepare query types))
  | .executePlan plan arguments markers =>
    some (s.request (Request.executePlan plan arguments markers))
  | .execute query readOnly => some (s.request (Request.execute query readOnly))
  | .commit => some (s.request Request.commit)
  | .rollback => some (s.request Request.rollback)
  | .ensureLoaded r => some (s.load r Registry.ensureLoaded)
  | .resolve r oid => some (s.load r (Registry.resolve oid))

def perform (s : Session) (operation : Operation) : Session :=
  match s.perform? operation with
  | some (_, s') => s'
  | none => s

def performAll (s : Session) (operations : List Operation) : Session :=
  operations.foldl perform s

/-- What an operation does with records.  A change of the settings does nothing with them, the drop of a
transaction hides the error of its rollback, and a new engine has no records. -/
inductive Books (e : Engine) : Operation → Option Error → Engine → Prop
  | disposed {operation : Operation} {failure : Option Error} {e' : Engine}
      (told : operation ≠ .step (.transaction .drop)) (disposes : Disposes e failure e') :
      Books e operation failure e'
  | dropped {hidden : Option Error} {e' : Engine} (disposes : Disposes e hidden e') :
      Books e (.step (.transaction .drop)) none e'
  | configured (setting : Setting) :
      Books e (.step (.connection (.configure setting))) none (e.configure setting)
  | replaced (settings : List Setting) (config : Config) :
      Books e (.step (.connection (.replace settings config))) none (Engine.ofSettings settings)

variable {s : Session} {α : Type}

theorem books_request {operation : Operation} {work : EngineM α}
    (told : operation ≠ .step (.transaction .drop)) (h : Relates Disposes id work) :
    Books s.connection.engine operation (s.request work).1 (s.request work).2.connection.engine :=
  .disposed told (h s.connection.engine)

theorem books_load {operation : Operation} {r : Registry}
    {work : EStateM Error (Registry × Engine) α} (told : operation ≠ .step (.transaction .drop))
    (h : Relates Disposes Prod.snd work) :
    Books s.connection.engine operation (s.load r work).1 (s.load r work).2.connection.engine :=
  .disposed told (h (r, s.connection.engine))

theorem books_transactionStep {outer : List Scope} {t : Transaction} (step : TransactionStep) :
    Books s.connection.engine (.step (.transaction step))
      (error? (s.transactionStep outer t step).1)
      (s.transactionStep outer t step).2.connection.engine := by
  cases step
  case commit =>
    exact .disposed nofun (goes_onConnection
      (Transaction.complete_disposes Request.commit_disposes t) fun _ => rfl)
  case rollback =>
    exact .disposed nofun (goes_onConnection
      (Transaction.complete_disposes Request.rollback_disposes t) fun _ => rfl)
  case drop =>
    obtain ⟨hidden, hdisposes⟩ := t.drop_disposes s.connection
    exact .dropped hdisposes
  all_goals exact .disposed nofun (ofQueries_disposes.goes_transactionStep s trivial)

theorem books_step {step : Step} {result : Except Error Reply × Session}
    (h : s.step? step = some result) :
    Books s.connection.engine (.step step) (error? result.1) result.2.connection.engine := by
  cases takes_of_step? h with
  | transaction _ step => exact books_transactionStep step
  | cursor _ step => exact .disposed nofun (ofQueries_disposes.goes_cursorStep s _ _ step)
  | connection step =>
    have told : Operation.step (.connection step) ≠ .step (.transaction .drop) := nofun
    cases step
    case configure setting => exact .configured setting
    case replace settings config => exact .replaced settings config
    case begin level =>
      exact .disposed told (goes_enter (Transaction.start_disposes level))
    all_goals
      refine .disposed told (ofQueries_disposes.goes_connectionStep s trivial ?_)
      intro setting hsetting
      cases hsetting

theorem books_of_perform? {operation : Operation} {result : Option Error × Session}
    (h : s.perform? operation = some result) :
    Books s.connection.engine operation result.1 result.2.connection.engine := by
  have hR := ofQueries_disposes
  cases operation with
  | step step =>
    obtain ⟨taken, hstep, rfl⟩ := Option.map_eq_some_iff.mp h
    exact books_step hstep
  | prepare query types => cases h; exact books_request nofun (hR.prepare query types)
  | executePlan plan arguments markers =>
    cases h; exact books_request nofun (hR.executePlan plan arguments markers)
  | execute query readOnly => cases h; exact books_request nofun (hR.execute query readOnly)
  | commit => cases h; exact books_request nofun Request.commit_disposes
  | rollback => cases h; exact books_request nofun Request.rollback_disposes
  | ensureLoaded r => cases h; exact books_load nofun hR.ensureLoaded
  | resolve r oid => cases h; exact books_load nofun (hR.resolve oid)

/-- An operation has no other error of the engine than the one that it has. -/
theorem Books.unique {e e' : Engine} {operation : Operation} {failure : Option Error}
    {d : DatabaseError} (h : Books e operation failure e')
    (h' : Books e operation (some (.database d)) e') : failure = some (.database d) := by
  cases h' with
  | disposed told disposes =>
    obtain ⟨⟨handle, hreleases⟩, -⟩ := disposes.shown
    -- A record has been given up, so the operation is none that gives up no record.
    have hpush : ∀ {rs : Array RecordHandle}, rs = e.releases → rs ≠ e.releases.push handle := by
      rintro _ rfl hself
      have hsize := congrArg Array.size hself
      rw [Array.size_push] at hsize
      omega
    cases h with
    | disposed _ disposes' =>
      cases disposes' with
      | clean _ steady _ => exact absurd hreleases (hpush steady.same.2)
      | failed works steady fails raises shows =>
        have hfailed := Disposes.failed works steady fails raises shows
        rw [hfailed.unique disposes]
    | dropped _ => exact absurd rfl told
    | configured setting =>
      exact absurd hreleases (hpush (configure_sameRecords e setting).2)
    | replaced settings config =>
      rw [(ofSettings_sameRecords settings).2] at hreleases
      have hsize := congrArg Array.size hreleases
      rw [Array.size_push] at hsize
      cases hsize

end Session

/-! ## A whole run -/

/-- Every record that has been raised since then has been given up once, and in order. -/
def Engine.Cleared (e e' : Engine) : Prop :=
  ∃ n, e'.records.toList = e.records.toList ++ List.replicate n none ∧
    e'.releases.toList = e.releases.toList ++ (List.range' e.records.size n).map RecordHandle.mk

namespace Engine

theorem Cleared.refl (e : Engine) : Cleared e e := ⟨0, by simp, by simp⟩

theorem Cleared.trans {e e' e'' : Engine} (h : Cleared e e') (h' : Cleared e' e'') :
    Cleared e e'' := by
  obtain ⟨n, hrecords, hreleases⟩ := h
  obtain ⟨n', hrecords', hreleases'⟩ := h'
  have hsize : e'.records.size = e.records.size + n := by
    rw [← Array.length_toList, hrecords]
    simp
  refine ⟨n + n', ?_, ?_⟩
  · rw [hrecords', hrecords, List.append_assoc, List.replicate_append_replicate]
  · rw [hreleases', hreleases, hsize, List.append_assoc, ← List.map_append, List.range'_append_1]

theorem cleared_of_same {e e' : Engine} (h : SameRecords e e') : Cleared e e' :=
  ⟨0, by simp [h.1], by simp [h.2]⟩

theorem Disposes.cleared {e e' : Engine} {failure : Option Error} (h : Disposes e failure e') :
    Cleared e e' := by
  cases h with
  | clean _ steady _ => exact cleared_of_same steady.same
  | @failed _ _ _ h _ _ works steady fails raises shows =>
    obtain ⟨hrecords, hreleases⟩ := raises.raised.release
    obtain ⟨hsame, hkept⟩ := steady.same
    have hhandle : h = ⟨e.records.size⟩ := by
      rw [← hsame]
      exact congrArg RecordHandle.mk raises.raised.index
    refine ⟨1, by simp [hrecords, hsame], ?_⟩
    rw [hreleases, hkept, hhandle, Array.toList_push]
    rfl

theorem Cleared.outstanding {e e' : Engine} (h : Cleared e e') : e'.outstanding = e.outstanding := by
  obtain ⟨n, hrecords, -⟩ := h
  rw [Engine.outstanding, hrecords, List.countP_append, List.countP_replicate]
  rfl

/-- The engine, or a new one in its place, has had all its records cleared. -/
def Kept (e e' : Engine) : Prop :=
  ∃ first, (first = e ∨ ∃ settings, first = ofSettings settings) ∧ Cleared first e'

theorem Kept.trans {e e' e'' : Engine} (h : Kept e e') (h' : Cleared e' e'') : Kept e e'' := by
  obtain ⟨first, hfirst, hcleared⟩ := h
  exact ⟨first, hfirst, hcleared.trans h'⟩

theorem Kept.outstanding {e e' : Engine} (h : Kept e e') (hnone : e.outstanding = 0) :
    e'.outstanding = 0 := by
  obtain ⟨first, rfl | ⟨settings, rfl⟩, hcleared⟩ := h
  · rw [hcleared.outstanding, hnone]
  · rw [hcleared.outstanding, Engine.outstanding, (ofSettings_sameRecords settings).1]
    rfl

end Engine

namespace Session

variable {s : Session}

theorem Books.kept {e e' e'' : Engine} {operation : Operation} {failure : Option Error}
    (h : Books e' operation failure e'') (hkept : Kept e e') : Kept e e'' := by
  cases h with
  | disposed _ disposes => exact hkept.trans disposes.cleared
  | dropped disposes => exact hkept.trans disposes.cleared
  | configured setting => exact hkept.trans (cleared_of_same (configure_sameRecords _ setting))
  | replaced settings config => exact ⟨_, .inr ⟨settings, rfl⟩, .refl _⟩

theorem performAll_kept (s : Session) (operations : List Operation) :
    Kept s.connection.engine (s.performAll operations).connection.engine := by
  induction operations using List.reverseRecOn with
  | nil => exact ⟨_, .inl rfl, .refl _⟩
  | append_singleton operations operation ih =>
    unfold performAll at *
    rw [List.foldl_append]
    show Kept _ (perform _ operation).connection.engine
    unfold perform
    split
    · next hperformed => exact (books_of_perform? hperformed).kept ih
    · exact ih

theorem finish_cleared (s : Session) : Cleared s.connection.engine s.finish.engine := by
  obtain ⟨c, scopes⟩ := s
  unfold finish
  dsimp only
  induction scopes generalizing c with
  | nil => exact .refl c.engine
  | cons scope outer ih =>
    rw [List.foldl_cons]
    refine Cleared.trans ?_ (ih _)
    cases scope with
    | cursor cursor =>
      rw [dropScope, Cursor.drop, Cursor.dispose, Cursor.finish_engine]
      exact .refl c.engine
    | transaction t =>
      obtain ⟨hidden, hdisposes⟩ := t.drop_disposes c
      exact hdisposes.cleared

/-- No record is outstanding after an operation.  If a native call has failed in the operation, then
its record and no other one has been given up, and the error of the operation shows this record, unless
the operation is the drop of a transaction, which has no error.  No other error of the engine goes with
what the operation has done.  All records of a run are given up once, in the order in which they are
raised, and every native call that fails raises the one that the engine has for it. -/
theorem records_given_up_once {s : Session} (h : s.connection.engine.outstanding = 0)
    (operations : List Operation) :
    let last := s.performAll operations
    last.connection.engine.outstanding = 0 ∧ last.finish.engine.outstanding = 0 ∧
      Kept s.connection.engine last.finish.engine ∧
      (∀ operation failure s', last.perform? operation = some (failure, s') →
        Books last.connection.engine operation failure s'.connection.engine ∧
          (∀ d, Books last.connection.engine operation (some (.database d)) s'.connection.engine →
            failure = some (.database d)) ∧
          s'.connection.engine.outstanding = 0) ∧
      ∀ e h e', Fails e h e' → ∃ call r, RaisesFor e call h r e' := by
  have hkept := performAll_kept s operations
  have hfinished := hkept.trans (finish_cleared (s.performAll operations))
  refine ⟨hkept.outstanding h, hfinished.outstanding h, hfinished, ?_, fun _ _ _ => Fails.raisesFor⟩
  intro operation failure s' hperformed
  have hbooks := books_of_perform? hperformed
  exact ⟨hbooks, fun _ => hbooks.unique, (hbooks.kept hkept).outstanding h⟩

/-- A beginning that fails to commit and a rollback that fails both give up the record that they have
raised. -/
theorem records_given_up_once_failing :
    let s := start [.failCommit {}, .failRollback {}] {}
    let operations : List Operation :=
      [.step (.connection .openUp), .step (.connection (.begin .unspecified)), .rollback]
    s.connection.engine.outstanding = 0 ∧
      (s.performAll operations).connection.engine.releases = #[⟨0⟩, ⟨1⟩] ∧
      (s.performAll operations).connection.engine.outstanding = 0 := by
  have hnone : (start [.failCommit {}, .failRollback {}] {}).connection.engine.outstanding = 0 := rfl
  exact ⟨hnone, by decide +kernel, (records_given_up_once hnone _).1⟩

end Session
end SqlSession
