import SqlSession.Command.Dispatch
import SqlSession.Proofs.Engine.Growth

/-!
# What sending does

A statement is sent with the calls `PlannedStatement.calls`, and its outcome has the table that was
made for it and the row count of its own execution (`Sent`).  It can stop in three places: before
the first call, between two calls, and behind the last one (`Stops`).  `sendAll_logs` says so of
statements that are sent one after the other: those before the one that stops have all their calls,
and those behind it have none.
-/

namespace SqlSession

/-! ## Arguments -/

/-- The value is none that its type can hold. -/
def Parameter.Misfit (p : Parameter) : Prop :=
  p.value.isNull = false ∧ Engine.fits p.typeOid p.value = false

namespace Argument

/-- The engine has this argument for a parameter. -/
structure StandsFor (e : Engine) (p : Parameter) (a : Argument) : Prop where
  type : a.type = p.typeOid
  isNull : a.isNull = p.value.isNull
  value : e.value? a.datum = some p.value
  fits : ¬ p.Misfit

theorem StandsFor.mono {e e' : Engine} (h : Engine.Keeps e e') {p : Parameter} {a : Argument}
    (ha : a.StandsFor e p) : a.StandsFor e' p :=
  { ha with value := h.value? ha.value }

variable {e e' : Engine} {p : Parameter} {ps : List Parameter}

theorem ofParameter_stores {a : Argument} (h : ofParameter p e = .ok a e') :
    Engine.Stores e e' ∧ a.StandsFor e' p := by
  unfold ofParameter at h
  split at h
  · next hnull =>
    obtain ⟨rfl, rfl⟩ := Effect.pure_eq_ok.mp h
    have hvalue := Value.isNull_iff.mp hnull
    refine ⟨.refl e, rfl, hnull.symm, by rw [hvalue]; rfl, ?_⟩
    rintro ⟨hnot, -⟩
    rw [hnull] at hnot
    cases hnot
  · next hnull =>
    obtain ⟨d, e₁, hd, h⟩ := Effect.bind_eq_ok.mp h
    obtain ⟨rfl, rfl⟩ := Effect.pure_eq_ok.mp h
    obtain ⟨hstores, hvalue⟩ := Engine.encode_stores hd
    refine ⟨hstores, rfl, by simpa using hnull, hvalue, ?_⟩
    rintro ⟨-, hmisfit⟩
    unfold Engine.encode at hd
    rw [hmisfit] at hd
    cases hd

theorem ofParameter_eq_error {err : Error} (h : ofParameter p e = .error err e') :
    e' = e ∧ p.Misfit ∧ err = .binding (.unencodable p.value.kind p.typeOid) := by
  unfold ofParameter at h
  split at h
  · cases h
  · next hnull =>
    obtain h | ⟨d, e₁, -, h⟩ := Effect.bind_eq_error.mp h
    · obtain ⟨he, hmisfit, herr⟩ := Engine.encode_eq_error h
      exact ⟨he, ⟨by simpa using hnull, hmisfit⟩, herr⟩
    · cases h

theorem ofParameters_stores {as : List Argument} (h : ofParameters ps e = .ok as e') :
    Engine.Stores e e' ∧ List.Forall₂ (fun p a => a.StandsFor e' p) ps as :=
  Effect.mapM_forall₂ (P := fun _ => True) (Q := fun e p a => a.StandsFor e p) Engine.Stores.refl
    (fun h h' => h.trans h') (fun _ h => h) (fun h ha => ha.mono h.continues.keeps)
    (fun _ h => ofParameter_stores h) trivial h

theorem fits_of_ofParameters {as : List Argument} (h : ofParameters ps e = .ok as e') :
    ∀ p ∈ ps, ¬ p.Misfit := by
  intro p hp
  obtain ⟨i, hi⟩ := List.mem_iff_getElem?.mp hp
  obtain ⟨a, -, ha⟩ := Effect.getElem?_of_forall₂ (ofParameters_stores h).2 hi
  exact ha.fits

theorem ofParameters_eq_error {err : Error} (h : ofParameters ps e = .error err e') :
    Engine.Stores e e' ∧
      ∃ p ∈ ps, p.Misfit ∧ err = .binding (.unencodable p.value.kind p.typeOid) := by
  obtain ⟨before, p, after, as, e₁, rfl, hbefore, hp⟩ := Effect.mapM_eq_error h
  obtain ⟨rfl, hmisfit, herr⟩ := ofParameter_eq_error hp
  exact ⟨(ofParameters_stores hbefore).1, p, by simp, hmisfit, herr⟩

end Argument

namespace PlannedStatement

/-! ## One statement -/

def marker (p : Parameter) : Char := if p.value.isNull then 'n' else ' '

/-- The calls that a statement is sent with. -/
def calls (s : PlannedStatement) : List Call :=
  match s.parameters with
  | [] => [.execute s.sql false]
  | ps => [.prepare s.sql (ps.map Parameter.typeOid),
      .executePlan s.sql (ps.map Parameter.value) (ps.map marker)]

/-- The outcome of a statement that has been sent from `e`. -/
structure Sent (e e' : Engine) (s : PlannedStatement) (o : Outcome) : Prop where
  continues : Engine.Continues e e'
  grows : Engine.Grows e e' s.calls o.table.toList
  reports : e'.Reports (e.response s.sql) o

/-- A statement stops with an error, after it has made these calls. -/
inductive Stops (e : Engine) (s : PlannedStatement) : Error → List Call → Prop
  | unencodable {p : Parameter} (mem : p ∈ s.parameters) (misfit : p.Misfit) :
      Stops e s (.binding (.unencodable p.value.kind p.typeOid)) []
  | unprepared {r : ErrorRecord} (parameters : s.parameters ≠ [])
      (fits : ∀ p ∈ s.parameters, ¬ p.Misfit) (scripted : e.scripted? s.sql = some (.failure r))
      (code : some r.code = SqlState.encode? SqlState.syntaxError) :
      Stops e s (.database (.ofRecord r)) [.prepare s.sql (s.parameters.map Parameter.typeOid)]
  | failed {r : ErrorRecord} (fits : ∀ p ∈ s.parameters, ¬ p.Misfit)
      (response : e.response s.sql = .failure r) : Stops e s (.database (.ofRecord r)) s.calls

theorem Stops.calls_prefix {e : Engine} {s : PlannedStatement} {err : Error} {sent : List Call}
    (h : Stops e s err sent) : sent <+: s.calls := by
  cases h with
  | unencodable _ _ => exact List.nil_prefix
  | unprepared hps _ _ _ =>
    obtain ⟨sql, _ | ⟨p, ps⟩⟩ := s
    · exact absurd rfl hps
    · exact ⟨[_], rfl⟩
  | failed _ _ => exact List.prefix_rfl

theorem Stops.of_alike {e e' : Engine} (h : Engine.Alike e e') {s : PlannedStatement} {err : Error}
    {sent : List Call} (hs : Stops e' s err sent) : Stops e s err sent := by
  cases hs with
  | unencodable hp hmisfit => exact .unencodable hp hmisfit
  | unprepared hps hfits hscripted hcode =>
    refine .unprepared hps hfits ?_ hcode
    rw [← hscripted]
    simp only [Engine.scripted?, h.script]
  | failed hfits hresponse => exact .failed hfits (by rw [← hresponse, h.response])

variable {e e' : Engine} {s : PlannedStatement}

theorem map_of_standFor {as : List Argument} {ps : List Parameter} {β : Type} {f : Argument → β}
    {g : Parameter → β} (hfg : ∀ p a, a.StandsFor e p → f a = g p)
    (h : List.Forall₂ (fun p a => a.StandsFor e p) ps as) : as.map f = ps.map g := by
  induction h with
  | nil => rfl
  | cons hfirst _ ih => rw [List.map_cons, List.map_cons, hfg _ _ hfirst, ih]

theorem marker_of_standsFor {p : Parameter} {a : Argument} (h : a.StandsFor e p) :
    a.marker = marker p := by
  unfold Argument.marker marker
  rw [h.isNull]

/-- A prepared statement runs as the query of its plan, and the log shows the values that the
arguments stand for. -/
theorem executePlan_eq {plan : PlanHandle} {sql : String} {as : List Argument}
    {ps : List Parameter} (hplan : e.plans[plan.index]? = some sql)
    (has : List.Forall₂ (fun p a => a.StandsFor e p) ps as) :
    Engine.executePlan plan (as.map Argument.datum) (as.map Argument.marker) e =
      Engine.run sql (e.log (.executePlan sql (ps.map Parameter.value) (ps.map marker))) := by
  have hvalues : (as.map Argument.datum).map (fun d => (e.value? d).getD .null) =
      ps.map Parameter.value := by
    rw [List.map_map]
    exact map_of_standFor (fun p a h => by simp [h.value]) has
  have hmarkers : as.map Argument.marker = ps.map marker :=
    map_of_standFor (fun _ _ => marker_of_standsFor) has
  unfold Engine.executePlan
  simp only [hplan, Option.getD_some, hvalues, hmarkers]

/-- The types of the arguments are those of the parameters, and once the query has been prepared with
them its plan runs as the statement. -/
theorem plan_of_ofParameters {sql : String} {ps : List Parameter} {as : List Argument} {e₁ : Engine}
    (harguments : Argument.ofParameters ps e = .ok as e₁) :
    as.map Argument.type = ps.map Parameter.typeOid ∧
      ∀ {plan e₂}, Engine.prepare sql (as.map Argument.type) e₁ = .ok plan e₂ →
        Engine.executePlan plan (as.map Argument.datum) (as.map Argument.marker) e₂ =
          Engine.run sql (e₂.log (.executePlan sql (ps.map Parameter.value) (ps.map marker))) := by
  obtain ⟨-, has⟩ := Argument.ofParameters_stores harguments
  refine ⟨map_of_standFor (fun _ _ h => h.type) has, ?_⟩
  intro plan e₂ hplan
  obtain ⟨hcontinues, hquery⟩ := Engine.prepare_eq_ok hplan
  exact executePlan_eq hquery (has.imp fun _ _ h => h.mono hcontinues.keeps)

theorem send_sent {o : Outcome} (h : s.send e = .ok o e') : Sent e e' s o := by
  -- Both ways of sending end in the same run of the statement, on an engine that is further on.
  have hrun : ∀ {e₁ : Engine} {calls : List Call} {t : Option TableHandle},
      Engine.Continues e e₁ → Engine.Grows e e₁ calls [] → Engine.run s.sql e₁ = .ok t e' →
      o = ⟨t, e'.reportedRows⟩ → calls = s.calls → Sent e e' s o := by
    intro e₁ calls t he₁ hgrows hr ho hcalls
    subst ho hcalls
    obtain ⟨he', hanswer⟩ := Engine.run_eq_ok hr
    have hall := he₁.trans he'
    refine ⟨hall, ?_, ⟨t, e'.rowCount⟩, ?_, ?_⟩
    · simpa using hgrows.trans (Engine.run_grows hr)
    · rw [he₁.alike.response] at hanswer
      exact hanswer
    · rfl
  obtain ⟨sql, parameters⟩ := s
  cases parameters with
  | nil =>
    obtain ⟨t, hcall, ho⟩ := Request.outcome_eq_ok h
    exact hrun (Engine.continues_log e _) (Engine.grows_log e _) hcall ho rfl
  | cons p ps =>
    obtain ⟨arguments, e₁, harguments, h⟩ := Effect.bind_eq_ok.mp h
    obtain ⟨plan, e₂, hplan, h⟩ := Effect.bind_eq_ok.mp h
    obtain ⟨t, hcall, ho⟩ := Request.outcome_eq_ok h
    have hplan := Request.guarded_eq_ok.mp hplan
    obtain ⟨htypes, hexecute⟩ := plan_of_ofParameters harguments
    rw [hexecute hplan] at hcall
    obtain ⟨hstores, -⟩ := Argument.ofParameters_stores harguments
    have hprepared := hstores.continues.trans (Engine.prepare_eq_ok hplan).1
    have hgrows := hstores.grows.trans (Engine.prepare_grows hplan)
    rw [htypes] at hgrows
    exact hrun (hprepared.trans (Engine.continues_log e₂ _))
      (hgrows.trans (Engine.grows_log e₂ _)) hcall ho rfl

theorem send_fits {o : Outcome} (h : s.send e = .ok o e') : ∀ p ∈ s.parameters, ¬ p.Misfit := by
  obtain ⟨sql, parameters⟩ := s
  cases parameters with
  | nil => exact fun p hp => absurd hp List.not_mem_nil
  | cons p ps =>
    obtain ⟨arguments, e₁, harguments, -⟩ := Effect.bind_eq_ok.mp h
    exact Argument.fits_of_ofParameters harguments

theorem send_stops {err : Error} (h : s.send e = .error err e') :
    ∃ sent, Stops e s err sent ∧ Engine.Grows e e' sent [] := by
  obtain ⟨sql, parameters⟩ := s
  cases parameters with
  | nil =>
    obtain ⟨r, e₁, hcall, rfl, rfl⟩ := Request.outcome_eq_error h
    obtain ⟨record, hresponse, hgrows, rfl⟩ := Engine.run_eq_error hcall
    exact ⟨_, .failed (fun _ hp => absurd hp List.not_mem_nil) hresponse,
      ((Engine.grows_log e _).trans hgrows).trans (Request.grows_release _ _)⟩
  | cons p ps =>
    obtain h | ⟨arguments, e₁, harguments, h⟩ := Effect.bind_eq_error.mp h
    · obtain ⟨hstores, q, hq, hmisfit, rfl⟩ := Argument.ofParameters_eq_error h
      exact ⟨[], .unencodable hq hmisfit, hstores.grows⟩
    obtain ⟨hstores, -⟩ := Argument.ofParameters_stores harguments
    obtain ⟨htypes, hexecute⟩ := plan_of_ofParameters harguments
    have hfits := Argument.fits_of_ofParameters harguments
    obtain h | ⟨plan, e₂, hplan, h⟩ := Effect.bind_eq_error.mp h
    · obtain ⟨r, e₂, hcall, rfl, rfl⟩ := Request.guarded_eq_error h
      obtain ⟨record, hscripted, hcode, hgrows, rfl⟩ := Engine.prepare_eq_error hcall
      rw [htypes] at hgrows
      refine ⟨_, Stops.of_alike hstores.continues.alike
        (.unprepared (List.cons_ne_nil p ps) hfits hscripted hcode), ?_⟩
      exact (hstores.grows.trans hgrows).trans (Request.grows_release _ _)
    · have hplan := Request.guarded_eq_ok.mp hplan
      obtain ⟨r, e₃, hcall, rfl, rfl⟩ := Request.outcome_eq_error h
      rw [hexecute hplan] at hcall
      obtain ⟨record, hresponse, hgrows, rfl⟩ := Engine.run_eq_error hcall
      have hprepared := hstores.continues.trans (Engine.prepare_eq_ok hplan).1
      have hsent := hstores.grows.trans (Engine.prepare_grows hplan)
      rw [htypes] at hsent
      refine ⟨_, Stops.of_alike (hprepared.trans (Engine.continues_log e₂ _)).alike
        (.failed hfits hresponse), ?_⟩
      exact ((hsent.trans (Engine.grows_log e₂ _)).trans hgrows).trans (Request.grows_release _ _)

/-! ## All statements -/

variable {statements : List PlannedStatement}

theorem sendAll_sent {outcomes : List Outcome} (h : sendAll statements e = .ok outcomes e') :
    Engine.Continues e e' ∧
      Engine.Grows e e' (statements.flatMap calls) (outcomes.filterMap Outcome.table) ∧
      List.Forall₂ (fun s o => e'.Reports (e.response s.sql) o) statements outcomes := by
  induction statements generalizing e outcomes with
  | nil =>
    obtain ⟨rfl, rfl⟩ := Effect.mapM_nil_eq_ok.mp h
    exact ⟨.refl e, .of_eq rfl rfl, .nil⟩
  | cons s statements ih =>
    obtain ⟨o, e₁, rest, hs, hrest, rfl⟩ := Effect.mapM_cons_eq_ok.mp h
    have hsent := send_sent hs
    obtain ⟨hcontinues, hgrows, hreports⟩ := ih hrest
    have htables : (o :: rest).filterMap Outcome.table =
        o.table.toList ++ rest.filterMap Outcome.table := by
      rw [List.filterMap_cons]
      cases o.table <;> rfl
    refine ⟨hsent.continues.trans hcontinues, ?_, .cons (hsent.reports.mono hcontinues) ?_⟩
    · rw [List.flatMap_cons, htables]
      exact hsent.grows.trans hgrows
    · refine hreports.imp fun s o ho => ?_
      rw [hsent.continues.alike.response] at ho
      exact ho

/-- An engine that reports its own row counts has answered all statements as the script says. -/
theorem sendAll_eq_ok {statements : List PlannedStatement} {e e' : Engine}
    {outcomes : List Outcome} (hcount : e.faults.rowCount = none)
    (h : sendAll statements e = .ok outcomes e') :
    Engine.Continues e e' ∧
      List.Forall₂ (fun s o => e'.Answered (e.response s.sql) o) statements outcomes := by
  obtain ⟨hcontinues, -, hreports⟩ := sendAll_sent h
  refine ⟨hcontinues, hreports.imp ?_⟩
  rintro s o ⟨own, hown, rfl⟩
  rw [hcontinues.alike.faults, hcount]
  exact hown

theorem sendAll_fits {outcomes : List Outcome} (h : sendAll statements e = .ok outcomes e') :
    ∀ s ∈ statements, ∀ p ∈ s.parameters, ¬ p.Misfit := by
  induction statements generalizing e outcomes with
  | nil => exact fun s hs => absurd hs List.not_mem_nil
  | cons s statements ih =>
    obtain ⟨o, e₁, rest, hs, hrest, -⟩ := Effect.mapM_cons_eq_ok.mp h
    exact List.forall_mem_cons.mpr ⟨send_fits hs, ih hrest⟩

theorem sendAll_stops {err : Error} (h : sendAll statements e = .error err e') :
    ∃ before s after sent, statements = before ++ s :: after ∧ Stops e s err sent ∧
      e'.calls.toList = e.calls.toList ++ before.flatMap calls ++ sent := by
  obtain ⟨before, s, after, outcomes, e₁, rfl, hbefore, hs⟩ := Effect.mapM_eq_error h
  obtain ⟨hcontinues, hgrows, -⟩ := sendAll_sent hbefore
  obtain ⟨sent, hstops, hsent⟩ := send_stops hs
  refine ⟨before, s, after, sent, rfl, hstops.of_alike hcontinues.alike, ?_⟩
  rw [hsent.calls, hgrows.calls]

/-- Statements that have been sent have all their calls in the log, in order, and each has its own
table and row count.  If one of them stops, then those before it have all their calls in the log, it
has its first few there, and those behind it have none. -/
theorem sendAll_logs (statements : List PlannedStatement) (e : Engine) :
    match sendAll statements e with
    | .ok outcomes e' =>
      Engine.Grows e e' (statements.flatMap calls) (outcomes.filterMap Outcome.table) ∧
        List.Forall₂ (fun s o => e'.Reports (e.response s.sql) o) statements outcomes
    | .error err e' =>
      ∃ before s after sent, statements = before ++ s :: after ∧ Stops e s err sent ∧
        sent <+: s.calls ∧ e'.calls.toList = e.calls.toList ++ before.flatMap calls ++ sent := by
  cases h : sendAll statements e with
  | ok outcomes e' =>
    obtain ⟨-, hgrows, hreports⟩ := sendAll_sent h
    exact ⟨hgrows, hreports⟩
  | error err e' =>
    obtain ⟨before, s, after, sent, hall, hstops, hcalls⟩ := sendAll_stops h
    exact ⟨before, s, after, sent, hall, hstops, hstops.calls_prefix, hcalls⟩

end PlannedStatement
end SqlSession
