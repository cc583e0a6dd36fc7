import SqlSession.Proofs.Session.Records

/-!
# Prepared statements and plain ones

A statement with arguments is prepared, and a script can make it fail already there.  Without arguments it
is executed as it is.  Either way the script has one answer for it (`Engine.answer`), and the answers alone
decide how the sending of statements ends.  So both ways end the same, only under handles of their own
(`PlannedStatement.sendAll_bare`).
-/

namespace SqlSession

open Effect

namespace Engine

variable {e e' : Engine} {query : String} {r : Response} {o : Outcome}

/-- The answer to a query, or what callers see of the failure of the query. -/
def answer (e : Engine) (query : String) : Except DatabaseError Response :=
  match e.response query with
  | .failure r => .error (.ofRecord r)
  | r => .ok r

theorem answer_of_failure {r : ErrorRecord} (h : e.response query = .failure r) :
    e.answer query = .error (.ofRecord r) := by
  rw [answer, h]

/-- A failure has no outcome. -/
theorem answer_of_reports (h : e'.Reports (e.response query) o) :
    e.answer query = .ok (e.response query) := by
  obtain ⟨own, hown, -⟩ := h
  unfold answer
  cases hr : e.response query with
  | rows columns rows => rfl
  | command processed => rfl
  | failure r =>
    rw [hr] at hown
    cases hown

theorem Alike.answer (h : Alike e e') : e'.answer = e.answer := by
  funext query
  rw [Engine.answer, Engine.answer, h.response]

end Engine

/-! ## Outcomes on two engines -/

namespace Outcome

variable {e e' : Engine} {r : Response} {o o' : Outcome}

/-- Outcomes with the same number of rows, and either without a table or with tables of the same columns
and the same rows, each on its own engine. -/
inductive Same (e e' : Engine) : Outcome → Outcome → Prop
  | table {t t' : TableHandle} {columns : List Column} {rows : List (List Value)}
      (shows : e.Shows t columns rows) (shows' : e'.Shows t' columns rows) (processed : Nat) :
      Same e e' ⟨some t, processed⟩ ⟨some t', processed⟩
  | none (processed : Nat) : Same e e' ⟨none, processed⟩ ⟨none, processed⟩

theorem same_of_reports (hfaults : e'.faults = e.faults) (h : e.Reports r o) (h' : e'.Reports r o') :
    Same e e' o o' := by
  obtain ⟨own, hown, rfl⟩ := h
  obtain ⟨own', hown', rfl⟩ := h'
  rw [hfaults]
  cases hown with
  | table shows =>
    cases hown' with
    | table shows' => exact .table shows shows' _
  | command processed =>
    cases hown' with
    | command => exact .none _

theorem all_same_of_reports (hfaults : e'.faults = e.faults) {rs : List Response}
    {os os' : List Outcome} (h : List.Forall₂ e.Reports rs os) (h' : List.Forall₂ e'.Reports rs os') :
    List.Forall₂ (Same e e') os os' := by
  induction h generalizing os' with
  | nil =>
    cases h'
    exact .nil
  | cons hfirst _ ih =>
    cases h' with
    | cons hfirst' hrest' => exact .cons (same_of_reports hfaults hfirst hfirst') (ih hrest')

end Outcome

namespace PlannedStatement

variable {e e' : Engine} {s : PlannedStatement} {statements : List PlannedStatement}

/-! ## The script decides -/

/-- A statement whose arguments fit fails with what it is answered, whether that shows when it is prepared
or when it is executed. -/
theorem answer_of_send_error {err : Error} (hfits : ∀ p ∈ s.parameters, ¬ p.Misfit)
    (h : s.send e = .error err e') :
    ∃ failure, e.answer s.sql = .error failure ∧ err = .database failure := by
  obtain ⟨sent, hstops, -⟩ := send_stops h
  cases hstops with
  | unencodable hp hmisfit => exact absurd hmisfit (hfits _ hp)
  | @unprepared r _ _ hscripted _ =>
    have hresponse : e.response s.sql = .failure r := by rw [Engine.response, hscripted]
    exact ⟨_, Engine.answer_of_failure hresponse, rfl⟩
  | failed _ hresponse => exact ⟨_, Engine.answer_of_failure hresponse, rfl⟩

theorem answers_of_sendAll {outcomes : List Outcome} (h : sendAll statements e = .ok outcomes e') :
    ∃ rs, (statements.map sql).mapM e.answer = .ok rs ∧ List.Forall₂ e'.Reports rs outcomes := by
  obtain ⟨-, -, hreports⟩ := sendAll_sent h
  have hall : List.Forall₂ e'.Reports (statements.map fun s => e.response s.sql) outcomes := by
    rw [List.forall₂_map_left_iff]
    exact hreports
  refine ⟨_, check_mapM_eq_ok.mpr ?_, hall⟩
  rw [List.forall₂_map_left_iff, List.forall₂_map_right_iff, List.forall₂_same]
  intro s hs
  obtain ⟨i, hi⟩ := List.mem_iff_getElem?.mp hs
  obtain ⟨o, -, ho⟩ := getElem?_of_forall₂ hreports hi
  exact Engine.answer_of_reports ho

theorem answers_of_sendAll_error {err : Error} (hfits : ∀ s ∈ statements, ∀ p ∈ s.parameters, ¬ p.Misfit)
    (h : sendAll statements e = .error err e') :
    ∃ failure, (statements.map sql).mapM e.answer = .error failure ∧ err = .database failure := by
  obtain ⟨before, s, after, outcomes, e₁, rfl, hbefore, hs⟩ := mapM_eq_error h
  obtain ⟨rs, hanswers, -⟩ := answers_of_sendAll hbefore
  obtain ⟨hcontinues, -, -⟩ := sendAll_sent hbefore
  obtain ⟨failure, hanswer, rfl⟩ := answer_of_send_error (hfits s (by simp)) hs
  rw [hcontinues.alike.answer] at hanswer
  refine ⟨failure, ?_, rfl⟩
  rw [List.map_append, List.map_cons, List.mapM_append, hanswers, List.mapM_cons, hanswer]
  rfl

/-! ## Statements without their arguments -/

/-- The statement without its arguments, which is executed as it is. -/
def bare (s : PlannedStatement) : PlannedStatement := { s with parameters := [] }

/-- Statements end the same on two engines: with the same outcomes, or with the same error of the
engine. -/
inductive EndAlike :
    EStateM.Result Error Engine (List Outcome) → EStateM.Result Error Engine (List Outcome) → Prop
  | sent {e e' : Engine} {outcomes outcomes' : List Outcome}
      (same : List.Forall₂ (Outcome.Same e e') outcomes outcomes') :
      EndAlike (.ok outcomes e) (.ok outcomes' e')
  | failed {e e' : Engine} (failure : DatabaseError) :
      EndAlike (.error (.database failure) e) (.error (.database failure) e')

theorem map_sql_bare (statements : List PlannedStatement) :
    (statements.map bare).map sql = statements.map sql := by
  rw [List.map_map]
  rfl

theorem bare_fits : ∀ s ∈ statements.map bare, ∀ p ∈ s.parameters, ¬ p.Misfit := by
  intro s hs p hp
  obtain ⟨t, -, rfl⟩ := List.mem_map.mp hs
  exact absurd hp List.not_mem_nil

theorem sendAll_outstanding (statements : List PlannedStatement) (e : Engine) :
    (final (sendAll statements e)).outstanding = e.outstanding :=
  (Engine.ofQueries_disposes.sendAll statements e).cleared.outstanding

/-- Statements whose arguments fit end as they end without their arguments.  Their tables show the same,
their row counts are the same, and a failure is the same.  Neither way leaves an error record behind. -/
theorem sendAll_bare (statements : List PlannedStatement)
    (hfits : ∀ s ∈ statements, ∀ p ∈ s.parameters, ¬ p.Misfit) (e : Engine) :
    EndAlike (sendAll statements e) (sendAll (statements.map bare) e) ∧
      (final (sendAll statements e)).outstanding = e.outstanding ∧
      (final (sendAll (statements.map bare) e)).outstanding = e.outstanding := by
  refine ⟨?_, sendAll_outstanding _ e, sendAll_outstanding _ e⟩
  cases hsend : sendAll statements e with
  | ok outcomes e₁ =>
    obtain ⟨rs, hanswers, hreports⟩ := answers_of_sendAll hsend
    cases hbare : sendAll (statements.map bare) e with
    | ok outcomes' e₂ =>
      obtain ⟨rs', hanswers', hreports'⟩ := answers_of_sendAll hbare
      rw [map_sql_bare, hanswers] at hanswers'
      cases hanswers'
      obtain ⟨hcontinues, -, -⟩ := sendAll_sent hsend
      obtain ⟨hcontinues', -, -⟩ := sendAll_sent hbare
      have hfaults : e₂.faults = e₁.faults :=
        hcontinues'.alike.faults.trans hcontinues.alike.faults.symm
      exact .sent (Outcome.all_same_of_reports hfaults hreports hreports')
    | error err e₂ =>
      obtain ⟨failure, hfails, -⟩ := answers_of_sendAll_error bare_fits hbare
      rw [map_sql_bare, hanswers] at hfails
      cases hfails
  | error err e₁ =>
    obtain ⟨failure, hfails, rfl⟩ := answers_of_sendAll_error hfits hsend
    cases hbare : sendAll (statements.map bare) e with
    | ok outcomes' e₂ =>
      obtain ⟨rs', hanswers', -⟩ := answers_of_sendAll hbare
      rw [map_sql_bare, hfails] at hanswers'
      cases hanswers'
    | error err' e₂ =>
      obtain ⟨failure', hfails', rfl⟩ := answers_of_sendAll_error bare_fits hbare
      rw [map_sql_bare, hfails] at hfails'
      cases hfails'
      exact .failed failure

/-- A table, and then a syntax error. -/
def broken : Engine :=
  Engine.ofSettings
    [.script "SELECT $1" (.rows [Column.ofType "n" Oid.int4 Facets.undeclared] [[.int 1], [.null]]),
      .script "SELEC $1" (.failure (ErrorRecord.ofState SqlState.syntaxError "at SELEC"))]

def numbered : List PlannedStatement :=
  [⟨"SELECT $1", [.positional (.int 7)]⟩, ⟨"SELEC $1", [.positional (.int 7), .positional .null]⟩]

/-- The syntax error shows when the second statement is prepared, and without arguments when it is
executed. -/
theorem sendAll_bare_broken :
    (∀ s ∈ numbered, ∀ p ∈ s.parameters, ¬ p.Misfit) ∧
    ∃ failure e₁ e₂, sendAll numbered broken = .error (.database failure) e₁ ∧
      sendAll (numbered.map bare) broken = .error (.database failure) e₂ ∧
      e₁.calls.size = 3 ∧ e₂.calls.size = 2 ∧ e₁.outstanding = 0 ∧ e₂.outstanding = 0 := by
  have hfits : ∀ s ∈ numbered, ∀ p ∈ s.parameters, ¬ p.Misfit := by
    intro s hs p hp
    unfold Parameter.Misfit
    revert s p
    decide
  have hcalls : (final (sendAll numbered broken)).calls.size = 3 := by decide +kernel
  have hcalls' : (final (sendAll (numbered.map bare) broken)).calls.size = 2 := by decide +kernel
  have hfails : (verdict (sendAll numbered broken)).toBool = false := by decide +kernel
  obtain ⟨hend, hnone, hnone'⟩ := sendAll_bare numbered hfits broken
  cases hsend : sendAll numbered broken with
  | ok outcomes e₁ =>
    rw [hsend] at hfails
    cases hfails
  | error err e₁ =>
    rw [hsend] at hend hcalls hnone
    generalize sendAll (numbered.map bare) broken = result at hend hcalls' hnone'
    cases hend with
    | failed failure => exact ⟨hfits, failure, e₁, _, rfl, rfl, hcalls, hcalls', hnone, hnone'⟩

end PlannedStatement
end SqlSession
