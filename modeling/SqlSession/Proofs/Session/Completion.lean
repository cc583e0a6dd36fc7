import SqlSession.Proofs.Session.Queries
import SqlSession.Proofs.Transaction.Calls

/-!
# Every transaction is completed once

A transaction that has begun is open until it is committed, rolled back, let go or forgotten.  The
first three of these take one native call each, and no other step completes anything
(`Session.Event.Turn`).  So the commits and rollbacks in the log of an engine can be counted by what a
caller has done (`Session.Balance`).
-/

namespace SqlSession

open Effect Engine

def Scope.transaction? : Scope → Option Transaction
  | .transaction t => some t
  | .cursor _ => none

/-- The words that a statement about a savepoint starts with, and the name of the savepoint. -/
def TransactionStep.savepoint? : TransactionStep → Option (String × String)
  | .save name => some ("SAVEPOINT ", name)
  | .release name => some ("RELEASE SAVEPOINT ", name)
  | .rollbackTo name => some ("ROLLBACK TO SAVEPOINT ", name)
  | _ => none

/-- What a caller has done about transactions. -/
inductive Deed
  /-- To begin one, which has failed when the work before it was to be committed or later. -/
  | attempted
  | begun
  | committed
  | rolledBack
  | dropped
  | leaked
deriving DecidableEq

namespace Session

/-- The transactions that have begun and not ended, the innermost first. -/
def transactions (s : Session) : List Transaction := s.scopes.filterMap Scope.transaction?

/-- A step that has been taken, and the sessions before and after it. -/
structure Event where
  before : Session
  step : Step
  reply : Except Error Reply
  after : Session

/-- The steps of a run that are taken, which are those for the innermost scopes. -/
def events (s : Session) : List Step → List Event
  | [] => []
  | step :: steps =>
    match s.step? step with
    | some (reply, s') => ⟨s, step, reply, s'⟩ :: s'.events steps
    | none => s.events steps

namespace Event

/-- The calls that are in the log of the engine since the event.  A new engine has an empty log. -/
def calls (ev : Event) : List Call :=
  ev.after.connection.engine.calls.toList.drop ev.before.connection.engine.calls.size

/-- To begin a transaction on this connection comes to the commit of what was done before. -/
def Reaches (c : Connection) (level : IsolationLevel) : Prop :=
  c.phase = .idle ∧ level ≠ .chaos

instance (c : Connection) (level : IsolationLevel) : Decidable (Reaches c level) :=
  inferInstanceAs (Decidable (_ ∧ _))

def deed? (ev : Event) : Option Deed :=
  match ev.step, ev.reply with
  | .connection (.begin _), .ok _ => some .begun
  | .connection (.begin level), .error _ =>
    if Reaches ev.before.connection level then some .attempted else none
  | .transaction .commit, _ => some .committed
  | .transaction .rollback, _ => some .rolledBack
  | .transaction .drop, _ => some .dropped
  | .transaction .leak, _ => some .leaked
  | _, _ => none

/-- What a step does to the transactions of a session, and the calls that it takes. -/
inductive Turn (s : Session) : Step → Except Error Reply → List Call → Session → Prop
  | notBegun {level : IsolationLevel} {err : Error} {calls : List Call} {s' : Session}
      (begins : Transaction.Begins s.connection level (.error err) calls)
      (same : s'.transactions = s.transactions) :
      Turn s (.connection (.begin level)) (.error err) calls s'
  | begun {level : IsolationLevel} {t : Transaction} {calls : List Call} {s' : Session}
      (begins : Transaction.Begins s.connection level (.ok t) calls)
      (opens : s'.transactions = t :: s.transactions) :
      Turn s (.connection (.begin level)) (.ok .done) calls s'
  | committed {t : Transaction} {s' : Session} (ends : s.transactions = t :: s'.transactions) :
      Turn s (.transaction .commit)
        ((fun () => .ended .committed) <$> Request.answer s.connection.engine.faults.commit)
        [.commit] s'
  | rolledBack {t : Transaction} {s' : Session} (ends : s.transactions = t :: s'.transactions) :
      Turn s (.transaction .rollback)
        ((fun () => .ended .rolledBack) <$> Request.answer s.connection.engine.faults.rollback)
        [.rollback] s'
  | dropped {t : Transaction} {s' : Session} (ends : s.transactions = t :: s'.transactions) :
      Turn s (.transaction .drop) (.ok (.ended .dropped)) [.rollback] s'
  | leaked {t : Transaction} {s' : Session} (ends : s.transactions = t :: s'.transactions) :
      Turn s (.transaction .leak) (.ok (.ended .leaked)) [] s'
  | savepoint {step : TransactionStep} {words name : String} {reply : Except Error Reply}
      {s' : Session} (savepoint : step.savepoint? = some (words, name))
      (same : s'.transactions = s.transactions) :
      Turn s (.transaction step) reply (Transaction.savepointCalls words name) s'
  | replaced {settings : List Setting} {config : Config} {s' : Session}
      (same : s'.transactions = s.transactions) :
      Turn s (.connection (.replace settings config)) (.ok .done) [] s'
  | other {step : Step} {reply : Except Error Reply} {calls : List Call} {s' : Session}
      (ordinary : step.Ordinary) (elsewhere : ∀ step', step ≠ .transaction step')
      (queries : ∀ call ∈ calls, call.isCommit = false ∧ call.isRollback = false)
      (same : s'.transactions = s.transactions) : Turn s step reply calls s'

end Event

/-! ## One step -/

variable {s : Session} {α : Type}

theorem onConnection_eq (s : Session) (reply : α → Reply) (work : ConnectionM α) :
    s.onConnection reply work =
      (reply <$> verdict (work s.connection), { s with connection := final (work s.connection) }) := by
  unfold onConnection
  cases work s.connection <;> rfl

theorem transactions_onCursor (outer : List Scope) (cursor : Cursor) (reply : α → Reply)
    (work : CursorM α) :
    (s.onCursor outer cursor reply work).2.transactions = outer.filterMap Scope.transaction? := by
  unfold onCursor
  cases work cursor <;> rfl

/-- A step with a cursor has nothing to do with the transactions around it. -/
theorem transactions_cursorStep {cursor : Cursor} {outer : List Scope}
    (hinner : s.scopes = .cursor cursor :: outer) (step : CursorStep) :
    (s.cursorStep outer cursor step).2.transactions = s.transactions := by
  obtain ⟨c, scopes⟩ := s
  obtain rfl := hinner
  cases step
  case nextResult => exact transactions_onCursor _ _ _ _
  case read => exact transactions_onCursor _ _ _ _
  case typeName i =>
    show (onConnection _ _ _).2.transactions = _
    rw [onConnection_eq]
    rfl
  all_goals rfl

theorem transactions_connectionStep {step : ConnectionStep}
    (h : Step.Ordinary (.connection step)) :
    (s.connectionStep step).2.transactions = s.transactions := by
  cases step
  case replace settings config => exact h.elim
  case begin level => exact h.elim
  case openCursor command =>
    show (enter _ _ _).2.transactions = _
    unfold enter
    cases command.openCursor s.connection <;> rfl
  all_goals first | rfl | (show (onConnection _ _ _).2.transactions = _; rw [onConnection_eq]; rfl)

/-- The step is accounted for by the calls that it adds to the log. -/
def Logged (s : Session) (step : Step) (result : Except Error Reply × Session) : Prop :=
  ∃ calls, Event.Turn s step result.1 calls result.2 ∧
    Logs s.connection.engine result.2.connection.engine calls

/-- A step with a connection or a cursor that neither begins a transaction nor changes the engine for
another one asks nothing but queries. -/
theorem turn_other {step : Step} {result : Except Error Reply × Session}
    (hordinary : step.Ordinary) (helsewhere : ∀ step', step ≠ .transaction step')
    (h : s.step? step = some result) : s.Logged step result := by
  obtain ⟨calls, hlogs, hqueries⟩ := closed_asks.goes_ordinary s hordinary h
  refine ⟨calls, .other hordinary helsewhere hqueries ?_, hlogs⟩
  cases takes_of_step? h with
  | connection step => exact transactions_connectionStep hordinary
  | transaction _ step => exact absurd rfl (helsewhere step)
  | cursor hinner step => exact transactions_cursorStep hinner step

theorem turn_begin (s : Session) (level : IsolationLevel) :
    s.Logged (.connection (.begin level)) (s.connectionStep (.begin level)) := by
  obtain ⟨calls, hbegins, hlogs⟩ := Transaction.start_begins level s.connection
  have hstep : s.connectionStep (.begin level) = s.enter .transaction (Transaction.start level) := rfl
  rw [hstep]
  unfold enter
  cases hstart : Transaction.start level s.connection with
  | ok t c =>
    rw [hstart] at hbegins hlogs
    exact ⟨calls, .begun hbegins rfl, hlogs⟩
  | error err c =>
    rw [hstart] at hbegins hlogs
    exact ⟨calls, .notBegun hbegins rfl, hlogs⟩

/-- A transaction is left with one call, and the answer is that of the call. -/
theorem leave_complete {call : Call} {fault : Option ErrorRecord} {request : EngineM Unit}
    (h : Request.Makes call fault s.connection.engine (request s.connection.engine))
    (t : Transaction) (outer : List Scope) (ending : Ending) :
    (s.leave outer ending (t.complete request)).1 = (fun () => .ended ending) <$> Request.answer fault ∧
      (s.leave outer ending (t.complete request)).2.scopes = outer ∧
      Logs s.connection.engine (s.leave outer ending (t.complete request)).2.connection.engine
        [call] := by
  obtain ⟨hverdict, hlogs⟩ := Transaction.complete_makes h t
  unfold leave
  rw [onConnection_eq]
  exact ⟨congrArg (_ <$> ·) hverdict, rfl, hlogs⟩

theorem turn_savepoint {t : Transaction} {outer : List Scope} {step : TransactionStep}
    {words name : String} (hstep : step.savepoint? = some (words, name))
    (heq : s.transactionStep outer t step =
      s.onConnection (fun () => .done) (Transaction.onSavepoint words name)) :
    s.Logged (.transaction step) (s.transactionStep outer t step) := by
  rw [heq, onConnection_eq]
  exact ⟨_, .savepoint hstep rfl, Transaction.onSavepoint_logs words name s.connection⟩

theorem turn_transactionStep {t : Transaction} {outer : List Scope}
    (hinner : s.scopes = .transaction t :: outer) (hlive : t.completed = false)
    (step : TransactionStep) :
    s.Logged (.transaction step) (s.transactionStep outer t step) := by
  have hends : ∀ {s' : Session}, s'.scopes = outer → s.transactions = t :: s'.transactions := by
    intro s' houter
    rw [transactions, transactions, hinner, houter]
    rfl
  cases step
  case commit =>
    obtain ⟨hreply, hscopes, hlogs⟩ := leave_complete (Request.commit_makes _) t outer .committed
    refine ⟨[.commit], ?_, hlogs⟩
    show Event.Turn s _ (s.leave outer .committed (t.complete Request.commit)).1 _ _
    rw [hreply]
    exact .committed (hends hscopes)
  case rollback =>
    obtain ⟨hreply, hscopes, hlogs⟩ := leave_complete (Request.rollback_makes _) t outer .rolledBack
    refine ⟨[.rollback], ?_, hlogs⟩
    show Event.Turn s _ (s.leave outer .rolledBack (t.complete Request.rollback)).1 _ _
    rw [hreply]
    exact .rolledBack (hends hscopes)
  case drop => exact ⟨[.rollback], .dropped (hends rfl), Transaction.drop_logs hlive s.connection⟩
  case leak => exact ⟨[], .leaked (hends rfl), .of_eq rfl⟩
  case save name => exact turn_savepoint rfl rfl
  case release name => exact turn_savepoint rfl rfl
  case rollbackTo name => exact turn_savepoint rfl rfl

/-- The transactions that are open are not completed. -/
def Live (s : Session) : Prop := ∀ t ∈ s.transactions, t.completed = false

/-- Every step is accounted for by the calls that it adds to the log, unless it goes on with a new
engine, whose log is empty. -/
theorem turn_of_step? {step : Step} {result : Except Error Reply × Session} (hlive : s.Live)
    (h : s.step? step = some result) :
    ∃ calls, Event.Turn s step result.1 calls result.2 ∧
      (Logs s.connection.engine result.2.connection.engine calls ∨
        (∃ settings config, step = .connection (.replace settings config)) ∧ calls = [] ∧
          result.2.connection.engine.calls = #[]) := by
  -- The log of a new engine is not the old one with more calls, so this case comes first.
  by_cases hreplaced : ∃ settings config, step = .connection (.replace settings config)
  · obtain ⟨settings, config, rfl⟩ := hreplaced
    cases takes_of_step? h with
    | connection _ =>
      exact ⟨[], .replaced rfl, .inr ⟨⟨settings, config, rfl⟩, rfl, ofSettings_calls settings⟩⟩
  have hlogged : s.Logged step result := by
    cases takes_of_step? h with
    | transaction hinner step =>
      refine turn_transactionStep hinner (hlive _ ?_) step
      rw [transactions, hinner]
      exact List.mem_cons_self
    | cursor _ step => exact turn_other trivial nofun h
    | connection step =>
      cases step
      case begin level => exact turn_begin s level
      case replace settings config => exact absurd ⟨settings, config, rfl⟩ hreplaced
      all_goals exact turn_other trivial nofun h
  obtain ⟨calls, hturn, hlogs⟩ := hlogged
  exact ⟨calls, hturn, .inl hlogs⟩

/-! ## Counting -/

/-- What has been done to transactions has taken these calls, and has left so many of them open. -/
structure Balance (calls : List Call) (deeds : List Deed) (opened opened' : Nat) : Prop where
  commits : calls.countP Call.isCommit =
    deeds.count .attempted + deeds.count .begun + deeds.count .committed
  rollbacks : calls.countP Call.isRollback = deeds.count .rolledBack + deeds.count .dropped
  opened : opened + deeds.count .begun = opened' + deeds.count .committed +
    deeds.count .rolledBack + deeds.count .dropped + deeds.count .leaked

theorem Balance.trans {calls calls' : List Call} {deeds deeds' : List Deed} {n n' n'' : Nat}
    (h : Balance calls deeds n n') (h' : Balance calls' deeds' n' n'') :
    Balance (calls ++ calls') (deeds ++ deeds') n n'' := by
  obtain ⟨hcommits, hrollbacks, hopened⟩ := h
  obtain ⟨hcommits', hrollbacks', hopened'⟩ := h'
  constructor <;> simp only [List.countP_append, List.count_append] <;> omega

/-- A step that has no deed has no commit and no rollback either. -/
theorem Balance.of_queries {calls : List Call} {n n' : Nat}
    (h : ∀ call ∈ calls, call.isCommit = false ∧ call.isRollback = false) (hn : n' = n) :
    Balance calls [] n n' where
  commits := by
    rw [List.countP_eq_zero.mpr fun call hcall => ?_]
    · rfl
    · rw [(h call hcall).1]
      exact Bool.false_ne_true
  rollbacks := by
    rw [List.countP_eq_zero.mpr fun call hcall => ?_]
    · rfl
    · rw [(h call hcall).2]
      exact Bool.false_ne_true
  opened := by simp [hn]

theorem savepointCalls_queries (words name : String) :
    ∀ call ∈ Transaction.savepointCalls words name,
      call.isCommit = false ∧ call.isRollback = false := by
  unfold Transaction.savepointCalls
  cases Savepoint.quote name with
  | error err => exact nofun
  | ok quoted => exact List.forall_mem_singleton.mpr ⟨rfl, rfl⟩

namespace Event

variable {step : Step} {reply : Except Error Reply} {calls : List Call} {s' : Session}

/-- The event is accounted for by the calls that it has added to the log. -/
structure Accounted (ev : Event) : Prop where
  turn : Turn ev.before ev.step ev.reply ev.calls ev.after
  logs : (∀ settings config, ev.step ≠ .connection (.replace settings config)) →
    Logs ev.before.connection.engine ev.after.connection.engine ev.calls

theorem calls_of_logs {ev : Event}
    (h : Logs ev.before.connection.engine ev.after.connection.engine calls) : ev.calls = calls := by
  rw [Event.calls, h, ← Array.length_toList, List.drop_left]

/-- The beginning of a transaction commits what was done before it if it comes to that, and only
once. -/
theorem countP_begins {c : Connection} {level : IsolationLevel}
    {outcome : Except Error Transaction} (h : Transaction.Begins c level outcome calls) :
    calls.countP Call.isCommit = (if Reaches c level then 1 else 0) ∧
      calls.countP Call.isRollback = 0 ∧ ∀ t, outcome = .ok t → Reaches c level := by
  have hreaches : ∀ {sql}, c.checkReady = .ok () → level.effective.sql = .ok sql →
      Reaches c level := by
    rintro sql hready hsql
    refine ⟨Connection.checkReady_eq_ok.mp hready, ?_⟩
    rintro rfl
    cases hsql
  cases h with
  | refused busy =>
    refine ⟨(if_neg ?_).symm, rfl, nofun⟩
    rintro ⟨hidle, -⟩
    rw [Connection.checkReady_eq_ok.mpr hidle] at busy
    cases busy
  | unsupported ready chaos =>
    refine ⟨(if_neg ?_).symm, rfl, nofun⟩
    rintro ⟨-, hlevel⟩
    cases level
    case chaos => exact hlevel rfl
    all_goals cases chaos
  | notCommitted ready supported fault =>
    exact ⟨(if_pos (hreaches ready supported)).symm, rfl, nofun⟩
  | notSet ready supported commits response =>
    exact ⟨(if_pos (hreaches ready supported)).symm, rfl, nofun⟩
  | begun ready supported commits response =>
    have h := hreaches ready supported
    exact ⟨(if_pos h).symm, rfl, fun _ _ => h⟩

theorem deed?_ordinary (hordinary : step.Ordinary) (helsewhere : ∀ step', step ≠ .transaction step') :
    deed? ⟨s, step, reply, s'⟩ = none := by
  cases step with
  | transaction step => exact absurd rfl (helsewhere step)
  | cursor step => rfl
  | connection step =>
    cases step
    case begin level => exact hordinary.elim
    all_goals rfl

theorem deed?_savepoint {step : TransactionStep} {words name : String}
    (h : step.savepoint? = some (words, name)) :
    deed? ⟨s, .transaction step, reply, s'⟩ = none := by
  cases step
  case save | release | rollbackTo => rfl
  all_goals cases h

/-- What a step does to transactions goes with the calls that it takes. -/
theorem Turn.balance (h : Turn s step reply calls s') :
    Balance calls (deed? ⟨s, step, reply, s'⟩).toList s.transactions.length
      s'.transactions.length := by
  cases h with
  | notBegun begins same =>
    obtain ⟨hcommits, hrollbacks, -⟩ := countP_begins begins
    rw [same]
    unfold deed?
    dsimp only
    split at hcommits
    · next hreaches =>
      rw [if_pos hreaches]
      exact ⟨hcommits, hrollbacks, rfl⟩
    · next hreaches =>
      rw [if_neg hreaches]
      exact ⟨hcommits, hrollbacks, rfl⟩
  | begun begins opens =>
    obtain ⟨hcommits, hrollbacks, hreaches⟩ := countP_begins begins
    rw [if_pos (hreaches _ rfl)] at hcommits
    rw [opens]
    exact ⟨hcommits, hrollbacks, rfl⟩
  | committed ends => rw [ends]; exact ⟨rfl, rfl, rfl⟩
  | rolledBack ends => rw [ends]; exact ⟨rfl, rfl, rfl⟩
  | dropped ends => rw [ends]; exact ⟨rfl, rfl, rfl⟩
  | leaked ends => rw [ends]; exact ⟨rfl, rfl, rfl⟩
  | savepoint savepoint same =>
    rw [deed?_savepoint savepoint, same]
    exact .of_queries (savepointCalls_queries _ _) rfl
  | replaced same =>
    rw [same]
    exact .of_queries nofun rfl
  | other ordinary elsewhere queries same =>
    rw [deed?_ordinary ordinary elsewhere, same]
    exact .of_queries queries rfl

theorem Turn.live (h : Turn s step reply calls s') (hlive : s.Live) : s'.Live := by
  have hends : ∀ {t}, s.transactions = t :: s'.transactions → s'.Live := by
    intro t hends u hu
    exact hlive u (hends ▸ List.mem_cons_of_mem t hu)
  have hsame : s'.transactions = s.transactions → s'.Live := by
    intro hsame u hu
    exact hlive u (hsame ▸ hu)
  cases h with
  | notBegun _ same => exact hsame same
  | begun begins opens =>
    intro u hu
    rw [opens] at hu
    obtain rfl | hu := List.mem_cons.mp hu
    · cases begins with
      | begun => rfl
    · exact hlive u hu
  | committed ends => exact hends ends
  | rolledBack ends => exact hends ends
  | dropped ends => exact hends ends
  | leaked ends => exact hends ends
  | savepoint _ same => exact hsame same
  | replaced same => exact hsame same
  | other _ _ _ same => exact hsame same

/-- The calls that an event has added to the log account for it. -/
theorem accounted_of_step? (hlive : s.Live) (h : s.step? step = some (reply, s')) :
    Accounted ⟨s, step, reply, s'⟩ := by
  obtain ⟨calls, hturn, hlogs | ⟨⟨settings, config, hstep⟩, rfl, hempty⟩⟩ := turn_of_step? hlive h
  · have hcalls : Event.calls ⟨s, step, reply, s'⟩ = calls := calls_of_logs hlogs
    subst hcalls
    exact ⟨hturn, fun _ => hlogs⟩
  · have hcalls : Event.calls ⟨s, step, reply, s'⟩ = [] := by
      unfold Event.calls
      rw [hempty]
      exact List.drop_nil
    rw [← hcalls] at hturn
    exact ⟨hturn, fun hnot => absurd hstep (hnot settings config)⟩

end Event

/-! ## A whole run -/

theorem events_of_step? {step : Step} {reply : Except Error Reply} {s' : Session}
    (h : s.step? step = some (reply, s')) (steps : List Step) :
    s.events (step :: steps) = ⟨s, step, reply, s'⟩ :: s'.events steps ∧
      s.run (step :: steps) = s'.run steps := by
  have hstep : s.step step = s' := by rw [Session.step, h]
  refine ⟨by rw [events, h], ?_⟩
  show (s.step step).run steps = _
  rw [hstep]

theorem events_of_step?_none {step : Step} (h : s.step? step = none) (steps : List Step) :
    s.events (step :: steps) = s.events steps ∧ s.run (step :: steps) = s.run steps := by
  have hstep : s.step step = s := by rw [Session.step, h]
  refine ⟨by rw [events, h], ?_⟩
  show (s.step step).run steps = _
  rw [hstep]

theorem events_append (s : Session) (xs ys : List Step) :
    s.events (xs ++ ys) = s.events xs ++ (s.run xs).events ys := by
  induction xs generalizing s with
  | nil => rfl
  | cons x xs ih =>
    rcases hstep : s.step? x with _ | ⟨reply, s'⟩
    · obtain ⟨hevents, hrun⟩ := events_of_step?_none hstep xs
      rw [List.cons_append, (events_of_step?_none hstep _).1, hevents, hrun, ih]
    · obtain ⟨hevents, hrun⟩ := events_of_step? hstep xs
      rw [List.cons_append, (events_of_step? hstep _).1, hevents, hrun, ih, List.cons_append]

/-- From transactions that are not completed on, every event is accounted for, and all of them
together are as balanced as each one is. -/
theorem run_balance (hlive : s.Live) (steps : List Step) :
    (s.run steps).Live ∧ (∀ ev ∈ s.events steps, ev.Accounted) ∧
      Balance ((s.events steps).flatMap Event.calls) ((s.events steps).filterMap Event.deed?)
        s.transactions.length (s.run steps).transactions.length ∧
      ((∀ settings config, .connection (.replace settings config) ∉ steps) →
        Logs s.connection.engine (s.run steps).connection.engine
          ((s.events steps).flatMap Event.calls)) := by
  -- That no open transaction is completed is what the drop of one needs to make its call.
  induction steps generalizing s with
  | nil =>
    have hevents : s.events [] = [] := rfl
    rw [hevents]
    exact ⟨hlive, List.forall_mem_nil _, .of_queries (List.forall_mem_nil _) rfl,
      fun _ => .of_eq rfl⟩
  | cons step steps ih =>
    cases h : s.step? step with
    | none =>
      obtain ⟨hevents, hrun⟩ := events_of_step?_none h steps
      obtain ⟨hlive', haccounted, hbalance, hlogs⟩ := ih hlive
      rw [hevents, hrun]
      refine ⟨hlive', haccounted, hbalance, fun hnot => hlogs ?_⟩
      exact fun settings config hmem => hnot settings config (List.mem_cons_of_mem step hmem)
    | some result =>
      obtain ⟨reply, s'⟩ := result
      obtain ⟨hevents, hrun⟩ := events_of_step? h steps
      have hfirst := Event.accounted_of_step? hlive h
      obtain ⟨hlive', haccounted, hbalance, hlogs⟩ := ih (hfirst.turn.live hlive)
      rw [hevents, hrun, List.flatMap_cons]
      refine ⟨hlive', List.forall_mem_cons.mpr ⟨hfirst, haccounted⟩, ?_, fun hnot => ?_⟩
      · have hdeeds : ∀ ev evs, (ev :: evs).filterMap Event.deed? =
            ev.deed?.toList ++ evs.filterMap Event.deed? := by
          intro ev evs
          rw [List.filterMap_cons]
          cases ev.deed? <;> rfl
        rw [hdeeds]
        exact hfirst.turn.balance.trans hbalance
      · refine (hfirst.logs ?_).trans (hlogs ?_)
        · rintro settings config rfl
          exact hnot settings config List.mem_cons_self
        · exact fun settings config hmem => hnot settings config (List.mem_cons_of_mem step hmem)

theorem live_run (c : Connection) (steps : List Step) :
    (({ connection := c } : Session).run steps).Live := by
  have hfirst : Live { connection := c } := List.forall_mem_nil _
  exact (run_balance hfirst steps).1

/-- In the end every transaction that is still open is rolled back, and nothing else is done. -/
theorem finish_logs (hlive : s.Live) :
    Logs s.connection.engine s.finish.engine (List.replicate s.transactions.length .rollback) := by
  obtain ⟨c, scopes⟩ := s
  unfold Live transactions finish at *
  dsimp only at *
  induction scopes generalizing c with
  | nil => exact .of_eq rfl
  | cons scope outer ih =>
    rw [List.foldl_cons]
    cases scope with
    | cursor cursor =>
      have houter := ih (cursor.drop c) hlive
      unfold Logs at *
      rwa [Cursor.drop, Cursor.dispose, Cursor.finish_engine] at houter
    | transaction t =>
      obtain ⟨ht, hrest⟩ := List.forall_mem_cons.mp hlive
      exact (Transaction.drop_logs ht c).trans (ih (t.drop c) hrest)

/-- To let all transactions that are open go takes one rollback for each. -/
theorem balance_dropped (n : Nat) :
    Balance (List.replicate n .rollback) (List.replicate n .dropped) n 0 := by
  induction n with
  | zero => exact .of_queries (List.forall_mem_nil _) rfl
  | succ n ih =>
    have hone : Balance [.rollback] [.dropped] (n + 1) n := ⟨rfl, rfl, rfl⟩
    exact hone.trans ih

/-- Every step of a run takes the calls that go with what it does to transactions.  So the commits in
the log are those of the beginnings that have come so far and of the transactions that have been
committed, and the rollbacks are those of the transactions that have been rolled back or let go.  A
transaction that has begun has ended in one of these ways or has been forgotten, or it is still open
and is let go in the end. -/
theorem completed_once (c : Connection) (steps : List Step) :
    let first : Session := { connection := c }
    let s := first.run steps
    let events := first.events steps
    let calls := events.flatMap Event.calls
    let deeds := events.filterMap Event.deed?
    let opened := s.transactions.length
    (∀ ev ∈ events, ev.Accounted) ∧ Balance calls deeds 0 opened ∧
      Logs s.connection.engine s.finish.engine (List.replicate opened .rollback) ∧
      Balance (calls ++ List.replicate opened .rollback) (deeds ++ List.replicate opened .dropped)
        0 0 ∧
      ((∀ settings config, .connection (.replace settings config) ∉ steps) →
        Logs c.engine s.finish.engine (calls ++ List.replicate opened .rollback)) := by
  have hfirst : Live { connection := c } := List.forall_mem_nil _
  obtain ⟨hlive, haccounted, hbalance, hlogs⟩ := run_balance hfirst steps
  have hfinish := finish_logs hlive
  exact ⟨haccounted, hbalance, hfinish, hbalance.trans (balance_dropped _),
    fun hnot => (hlogs hnot).trans hfinish⟩

/-- A beginning that is refused is no deed, and one whose commit fails has begun nothing. -/
example :
    ((start [.failCommit {}] {}).events
      [.connection .openUp, .connection (.begin .chaos), .connection (.begin .unspecified),
        .transaction .rollback]).filterMap Event.deed? = [.attempted] := by
  decide +kernel

end Session
end SqlSession
