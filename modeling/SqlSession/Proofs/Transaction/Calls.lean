import SqlSession.Proofs.Connection.Queries

/-!
# The calls of transactions

Only transactions commit and roll back.  `Transaction.Begins` says for every way in which the beginning
of one can go which calls that takes.  The end of one takes a single call, which is made once whether
it fails or not.  Work that is made of queries makes no such call (`Engine.Asks`).
-/

namespace SqlSession

open Effect

namespace Call

def isCommit : Call → Bool
  | commit => true
  | _ => false

def isRollback : Call → Bool
  | rollback => true
  | _ => false

end Call

namespace Engine

/-! ## The log -/

/-- The log has grown by these calls. -/
def Logs (e e' : Engine) (calls : List Call) : Prop :=
  e'.calls.toList = e.calls.toList ++ calls

theorem Logs.of_eq {e e' : Engine} (h : e'.calls = e.calls) : Logs e e' [] := by
  rw [Logs, h, List.append_nil]

theorem Logs.of_push {e e' : Engine} {call : Call} (h : e'.calls = e.calls.push call) :
    Logs e e' [call] := by
  rw [Logs, h, Array.toList_push]

theorem Logs.trans {e e' e'' : Engine} {calls calls' : List Call} (h : Logs e e' calls)
    (h' : Logs e' e'' calls') : Logs e e'' (calls ++ calls') := by
  rw [Logs, h', h, List.append_assoc]

theorem run_calls (query : String) (e : Engine) : (final (run query e)).calls = e.calls := by
  unfold run
  split <;> rfl

theorem prepare_calls (query : String) (types : List Oid) (e : Engine) :
    (final (prepare query types e)).calls = e.calls.push (.prepare query types) := by
  unfold prepare
  dsimp only
  split
  · split <;> rfl
  · rfl

theorem configure_calls (e : Engine) (setting : Setting) : (e.configure setting).calls = e.calls := by
  cases setting <;> rfl

theorem ofSettings_calls (settings : List Setting) : (ofSettings settings).calls = #[] := by
  have hfold : ∀ e : Engine, (settings.foldl configure e).calls = e.calls := by
    induction settings with
    | nil => exact fun _ => rfl
    | cons setting settings ih => exact fun e => (ih _).trans (e.configure_calls setting)
  exact hfold initial

end Engine

namespace Request

open Engine

variable {α : Type} {e : Engine}

theorem guarded_calls (call : Native α) (e : Engine) :
    (final (guarded call e)).calls = (final (call e)).calls := by
  unfold guarded
  cases call e <;> rfl

theorem outcome_calls (call : Native (Option TableHandle)) (e : Engine) :
    (final (outcome call e)).calls = (final (call e)).calls := by
  rw [← guarded_calls]
  unfold outcome
  rw [bind_apply]
  cases guarded call e <;> rfl

theorem execute_logs (query : String) (readOnly : Bool) (e : Engine) :
    Logs e (final (execute query readOnly e)) [.execute query readOnly] :=
  .of_push ((outcome_calls _ e).trans (run_calls query _))

/-- What a request answers whose native call only fails on purpose. -/
def answer (fault : Option ErrorRecord) : Except Error Unit :=
  match fault with
  | none => .ok ()
  | some r => .error (.database (.ofRecord r))

/-- The request has made this call and answers as the fault has it.  It has not changed any script. -/
structure Makes (call : Call) (fault : Option ErrorRecord) (e : Engine)
    (result : EStateM.Result Error Engine Unit) : Prop where
  verdict : verdict result = answer fault
  logs : Logs e (final result) [call]
  script : (final result).script = e.script

theorem Makes.of_ok {call : Call} {fault : Option ErrorRecord} {e e' : Engine}
    {result : EStateM.Result Error Engine Unit} (h : Makes call fault e result)
    (hok : result = .ok () e') : fault = none ∧ Logs e e' [call] ∧ e'.script = e.script := by
  subst hok
  refine ⟨?_, h.logs, h.script⟩
  cases fault with
  | none => rfl
  | some r => cases h.verdict

theorem Makes.of_error {call : Call} {fault : Option ErrorRecord} {e e' : Engine} {err : Error}
    {result : EStateM.Result Error Engine Unit} (h : Makes call fault e result)
    (herror : result = .error err e') :
    ∃ r, fault = some r ∧ err = .database (.ofRecord r) ∧ Logs e e' [call] := by
  subst herror
  cases fault with
  | none => cases h.verdict
  | some r => exact ⟨r, rfl, Except.error.inj h.verdict, h.logs⟩

theorem guarded_makes {call : Call} {fault : Option ErrorRecord} {native : Native Unit}
    (h : Completes e call fault (native e)) : Makes call fault e (guarded native e) := by
  unfold guarded
  generalize native e = result at h
  cases h with
  | done => exact ⟨rfl, .of_push rfl, rfl⟩
  | failed r faults =>
    obtain ⟨-, hrecord⟩ := raise_eq_error (α := Unit) (r := r) (e := { e.log call with faults }) rfl
    refine ⟨?_, .of_push rfl, rfl⟩
    show Except.error (Error.database (.ofRecord (record _ _))) = _
    rw [hrecord]
    rfl

theorem commit_makes (e : Engine) : Makes .commit e.faults.commit e (commit e) :=
  guarded_makes (commit_completes e)

theorem rollback_makes (e : Engine) : Makes .rollback e.faults.rollback e (rollback e) :=
  guarded_makes (rollback_completes e)

theorem execute_eq_error {query : String} {readOnly : Bool} {e e' : Engine} {err : Error}
    (h : execute query readOnly e = .error err e') :
    ∃ r, e.response query = .failure r ∧ err = .database (.ofRecord r) := by
  obtain ⟨handle, e₁, hcall, -, rfl⟩ := outcome_eq_error h
  obtain ⟨r, hresponse, -, rfl⟩ := run_eq_error hcall
  exact ⟨_, hresponse, rfl⟩

theorem execute_eq_ok {query : String} {readOnly : Bool} {e e' : Engine} {o : Outcome}
    (h : execute query readOnly e = .ok o e') : ∀ r, e.response query ≠ .failure r := by
  obtain ⟨t, hcall, -⟩ := outcome_eq_ok h
  have hanswered : e'.Answered (e.response query) _ := (run_eq_ok hcall).2
  intro r hr
  rw [hr] at hanswered
  cases hanswered

end Request

/-- Nothing has been asked of the engine but queries. -/
def Engine.Asks : EngineRel := fun e _ e' =>
  ∃ calls, Logs e e' calls ∧ ∀ call ∈ calls, call.isCommit = false ∧ call.isRollback = false

theorem Engine.closed_asks : EngineRel.Closed Asks where
  refl e := ⟨[], .of_eq rfl, nofun⟩
  refused e _ _ := ⟨[], .of_eq rfl, nofun⟩
  trans := by
    rintro e e' e'' failure ⟨calls, hlogs, hcalls⟩ ⟨calls', hlogs', hcalls'⟩
    refine ⟨calls ++ calls', hlogs.trans hlogs', ?_⟩
    intro call hcall
    obtain hfirst | hrest := List.mem_append.mp hcall
    · exact hcalls call hfirst
    · exact hcalls' call hrest
  stores h := ⟨[], h.grows.calls, nofun⟩
  configure e setting := ⟨[], .of_eq (e.configure_calls setting), nofun⟩
  prepare query types e :=
    ⟨[_], .of_push ((Request.guarded_calls _ e).trans (prepare_calls query types e)),
      List.forall_mem_singleton.mpr ⟨rfl, rfl⟩⟩
  executePlan plan arguments markers e :=
    ⟨[_], .of_push ((Request.outcome_calls _ e).trans (run_calls _ _)),
      List.forall_mem_singleton.mpr ⟨rfl, rfl⟩⟩
  execute query readOnly e :=
    ⟨[_], Request.execute_logs query readOnly e, List.forall_mem_singleton.mpr ⟨rfl, rfl⟩⟩

namespace Transaction

open Engine Request

/-! ## Beginning -/

/-- The statement that sets the isolation level. -/
def setLevel (sql : String) : String := "SET TRANSACTION ISOLATION LEVEL " ++ sql

/-- The ways in which the beginning of a transaction can go, each with the calls that it takes. -/
inductive Begins (c : Connection) (level : IsolationLevel) :
    Except Error Transaction → List Call → Prop
  | refused {err : Error} (busy : c.checkReady = .error err) : Begins c level (.error err) []
  | unsupported {err : Error} (ready : c.checkReady = .ok ())
      (chaos : level.effective.sql = .error err) : Begins c level (.error err) []
  | notCommitted {sql : String} {r : ErrorRecord} (ready : c.checkReady = .ok ())
      (supported : level.effective.sql = .ok sql) (fault : c.engine.faults.commit = some r) :
      Begins c level (.error (.database (.ofRecord r))) [.commit]
  | notSet {sql : String} {r : ErrorRecord} (ready : c.checkReady = .ok ())
      (supported : level.effective.sql = .ok sql) (commits : c.engine.faults.commit = none)
      (response : c.engine.response (setLevel sql) = .failure r) :
      Begins c level (.error (.database (.ofRecord r))) [.commit, .execute (setLevel sql) false]
  | begun {sql : String} (ready : c.checkReady = .ok ()) (supported : level.effective.sql = .ok sql)
      (commits : c.engine.faults.commit = none)
      (response : ∀ r, c.engine.response (setLevel sql) ≠ .failure r) :
      Begins c level (.ok { level := level.effective })
        [.commit, .execute (setLevel sql) false]

theorem start_eq (level : IsolationLevel) (c : Connection) :
    start level c =
      match c.checkReady, level.effective.sql with
      | .error err, _ => .error err c
      | .ok (), .error err => .error err c
      | .ok (), .ok sql =>
        (do
          Connection.onEngine Request.commit
          let _ ← Connection.onEngine (Request.execute (setLevel sql) false)
          return ({ level := level.effective } : Transaction)) c := by
  unfold start
  rw [bind_apply, get_apply]
  dsimp only
  rw [bind_apply]
  cases c.checkReady with
  | error err => rfl
  | ok ready =>
    cases level.effective.sql <;> rfl

theorem start_begins (level : IsolationLevel) (c : Connection) :
    ∃ calls, Begins c level (verdict (start level c)) calls ∧
      Logs c.engine (final (start level c)).engine calls := by
  rw [start_eq]
  cases hready : c.checkReady with
  | error err => exact ⟨[], .refused hready, .of_eq rfl⟩
  | ok ready =>
    cases hsql : level.effective.sql with
    | error err => exact ⟨[], .unsupported hready hsql, .of_eq rfl⟩
    | ok sql =>
      dsimp only
      rw [bind_apply]
      cases hcommit : Request.commit c.engine with
      | error err e =>
        obtain ⟨r, hfault, rfl, hlogs⟩ := (commit_makes c.engine).of_error hcommit
        rw [Connection.onEngine_of_error hcommit]
        exact ⟨[.commit], .notCommitted hready hsql hfault, hlogs⟩
      | ok done e =>
        obtain ⟨hfault, hlogs, hscript⟩ := (commit_makes c.engine).of_ok hcommit
        rw [Connection.onEngine_of_ok hcommit]
        have hall := hlogs.trans (execute_logs (setLevel sql) false e)
        have hresponse : e.response (setLevel sql) = c.engine.response (setLevel sql) := by
          simp only [response, scripted?, hscript]
        dsimp only
        rw [bind_apply]
        cases hset : Request.execute (setLevel sql) false e with
        | error err e' =>
          rw [Connection.onEngine_of_error (c := { c with engine := e }) hset]
          rw [hset] at hall
          obtain ⟨r, hr, rfl⟩ := execute_eq_error hset
          exact ⟨_, .notSet hready hsql hfault (hresponse.symm.trans hr), hall⟩
        | ok outcome e' =>
          rw [Connection.onEngine_of_ok (c := { c with engine := e }) hset]
          rw [hset] at hall
          exact ⟨_, .begun hready hsql hfault (hresponse ▸ execute_eq_ok hset), hall⟩

/-! ## Ending -/

theorem drop_logs {t : Transaction} (h : t.completed = false) (c : Connection) :
    Logs c.engine (t.drop c).engine [.rollback] := by
  have hrollback := rollback_makes c.engine
  unfold drop
  rw [if_neg (by rw [h]; exact Bool.false_ne_true)]
  cases hresult : Request.rollback c.engine with
  | ok done e =>
    rw [Connection.onEngine_of_ok hresult]
    exact (hrollback.of_ok hresult).2.1
  | error err e =>
    rw [Connection.onEngine_of_error hresult]
    obtain ⟨_, _, _, hlogs⟩ := hrollback.of_error hresult
    exact hlogs

/-- The end of a transaction takes one call, and nothing comes after it if it fails. -/
theorem complete_makes {call : Call} {fault : Option ErrorRecord} {request : EngineM Unit}
    {c : Connection} (h : Makes call fault c.engine (request c.engine)) (t : Transaction) :
    verdict (t.complete request c) = answer fault ∧
      Logs c.engine (final (t.complete request c)).engine [call] := by
  unfold complete
  cases hresult : request c.engine with
  | ok done e =>
    obtain ⟨rfl, hlogs, -⟩ := h.of_ok hresult
    rw [Connection.onEngine_of_ok hresult]
    exact ⟨rfl, hlogs⟩
  | error err e =>
    obtain ⟨r, rfl, rfl, hlogs⟩ := h.of_error hresult
    rw [Connection.onEngine_of_error hresult]
    exact ⟨rfl, hlogs⟩

/-! ## Savepoints -/

/-- The calls that a statement about a savepoint takes, which are none if its name is refused. -/
def savepointCalls (words name : String) : List Call :=
  match Savepoint.quote name with
  | .ok quoted => [.execute (words ++ quoted) false]
  | .error _ => []

theorem onSavepoint_logs (words name : String) (c : Connection) :
    Logs c.engine (final (onSavepoint words name c)).engine (savepointCalls words name) := by
  unfold onSavepoint savepointCalls
  cases Savepoint.quote name with
  | error err => exact .of_eq rfl
  | ok quoted =>
    have hlogs := execute_logs (words ++ quoted) false c.engine
    show Logs c.engine (final ((Connection.onEngine _ >>= fun _ => pure ()) c)).engine _
    rw [bind_apply]
    cases hresult : Request.execute (words ++ quoted) false c.engine with
    | ok outcome e =>
      rw [Connection.onEngine_of_ok hresult]
      rwa [hresult] at hlogs
    | error err e =>
      rw [Connection.onEngine_of_error hresult]
      rwa [hresult] at hlogs

end Transaction
end SqlSession
