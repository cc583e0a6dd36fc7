import SqlSession.Proofs.Command.Dispatch
import SqlSession.Proofs.Command.Opening
import SqlSession.Proofs.Command.Plan

/-!
# What has been executed when binding fails

Parameters are bound in two places.  Styles and names are settled by the plan, before anything is
sent.  A value is handed over when its own statement is sent, and by then the statements before it
have been executed.  `BindingFault.Leaves` says for every fault what has been done, and
`Command.binding_fault_leaves` that no way of running a command does anything else.
-/

namespace SqlSession

namespace PlannedStatement

theorem queries_of_calls (s : PlannedStatement) : s.calls.filterMap Call.query? = [s.sql] := by
  obtain ⟨sql, _ | ⟨p, ps⟩⟩ := s <;> rfl

theorem queries_of_statements (statements : List PlannedStatement) :
    (statements.flatMap calls).filterMap Call.query? = statements.map sql := by
  induction statements with
  | nil => rfl
  | cons s statements ih =>
    rw [List.flatMap_cons, List.filterMap_append, queries_of_calls, ih, List.map_cons]
    rfl

/-- Statements that stop because a value cannot be handed over stop at the first one with a value
that does not fit, and those before it have been executed. -/
theorem sendAll_unbound {statements : List PlannedStatement} {e e' : Engine} {fault : BindingFault}
    (h : sendAll statements e = .error (.binding fault) e') :
    ∃ before s after, statements = before ++ s :: after ∧
      (∀ t ∈ before, ∀ p ∈ t.parameters, ¬ p.Misfit) ∧
      (∃ p ∈ s.parameters, p.Misfit ∧ fault = .unencodable p.value.kind p.typeOid) ∧
      e'.executedQueries = e.executedQueries ++ before.map sql := by
  obtain ⟨before, s, after, outcomes, e₁, rfl, hbefore, hs⟩ := Effect.mapM_eq_error h
  obtain ⟨-, hgrows, -⟩ := sendAll_sent hbefore
  obtain ⟨sent, hstops, hsent⟩ := send_stops hs
  cases hstops with
  | @unencodable p hp hmisfit =>
    refine ⟨before, s, after, rfl, sendAll_fits hbefore, ⟨p, hp, hmisfit, rfl⟩, ?_⟩
    unfold Engine.executedQueries
    rw [hsent.calls, hgrows.calls, List.append_nil, List.filterMap_append, queries_of_statements]

end PlannedStatement

/-- What a command has done to a connection when it fails with this fault. -/
def BindingFault.Leaves (command : Command) (c c' : Connection) : BindingFault → Prop
  | .mixedStyles | .missing _ => c' = c
  | .unencodable kind type =>
    ∃ before s after e,
      Command.plan c.config.numberNamed command.parts = .ok (before ++ s :: after) ∧
      (∀ t ∈ before, ∀ p ∈ t.parameters, ¬ p.Misfit) ∧
      (∃ p ∈ s.parameters, p.Misfit ∧ p.value.kind = kind ∧ p.typeOid = type) ∧
      c' = { c with engine := e } ∧
      e.executedQueries = c.engine.executedQueries ++ before.map PlannedStatement.sql

namespace Command

variable {command : Command} {c c' : Connection} {fault : BindingFault}

/-- No value is looked at before the statements are sent. -/
theorem plan_ne_unencodable {numberNamed : Bool} {parts : List CommandPart} {kind : Kind}
    {type : Oid} : plan numberNamed parts ≠ .error (.binding (.unencodable kind type)) := by
  intro h
  by_cases hblank : Blank parts
  · rw [plan_of_blank hblank] at h
    cases h
  by_cases hmixed : Parameter.Mixed (parameters parts)
  · rw [plan_of_mixed hblank hmixed] at h
    cases h
  by_cases hlacks : Numbered numberNamed parts ∧ Unsupplied parts
  · obtain ⟨name, hplan⟩ := plan_of_unsupplied hblank hmixed hlacks.1 hlacks.2
    rw [hplan] at h
    cases h
  · obtain ⟨statements, hplan, -⟩ := plan_of_supplied hblank hmixed hlacks
    rw [hplan] at h
    cases h

theorem openCursor_leaves (h : command.openCursor c = .error (.binding fault) c') :
    fault.Leaves command c c' := by
  obtain ⟨rfl, hready | hplan⟩ | ⟨statements, e, hplan, hsend, rfl⟩ := openCursor_eq_error h
  · unfold Connection.checkReady at hready
    split at hready <;> cases hready
  · cases fault with
    | mixedStyles => rfl
    | missing name => rfl
    | unencodable kind type => exact absurd hplan plan_ne_unencodable
  · obtain ⟨before, s, after, rfl, hfits, ⟨p, hp, hmisfit, rfl⟩, hqueries⟩ :=
      PlannedStatement.sendAll_unbound hsend
    exact ⟨before, s, after, e, hplan, hfits, ⟨p, hp, hmisfit, rfl, rfl⟩, rfl, hqueries⟩

/-- A walk over the results has nothing to bind. -/
theorem withCursor_leaves {α : Type} {walk : Engine → CursorM α}
    (hwalk : ∀ e, Cursor.Keeps (walk e))
    (h : command.withCursor walk c = .error (.binding fault) c') : fault.Leaves command c c' := by
  cases hopen : command.openCursor c with
  | error err c₁ =>
    rw [withCursor_of_error hopen] at h
    cases h
    exact openCursor_leaves hopen
  | ok cursor c₁ =>
    obtain ⟨-, hends⟩ := withCursor_ends hwalk hopen
    cases (hends.of_error h).2

/-- A command that fails to bind its parameters has either done nothing at all, or has executed the
statements before the first one with a value that does not fit, and nothing else. -/
theorem binding_fault_leaves
    (h : command.openCursor c = .error (.binding fault) c' ∨
      command.scalar c = .error (.binding fault) c' ∨
      command.nonQuery c = .error (.binding fault) c') : fault.Leaves command c c' := by
  obtain hopen | hscalar | hnonQuery := h
  · exact openCursor_leaves hopen
  · exact withCursor_leaves scalar_walk_keeps hscalar
  · exact withCursor_leaves nonQuery_walk_keeps hnonQuery

/-- A text does not fit an integer, and the statement with it is the second one. -/
def misfitBehind : Command :=
  ⟨[⟨"DELETE FROM t", []⟩, ⟨"SELECT $1", [{ type := some .integer, value := .text "x" }]⟩], {}⟩

def deleting : Connection :=
  { engine := Engine.initial.answerWith "DELETE FROM t" (.command 1)
    phase := .idle
    binding := .connection }

theorem openCursor_misfitBehind :
    ∃ c', misfitBehind.openCursor deleting =
        .error (.binding (.unencodable .text Oid.int4)) c' ∧
      c'.engine.executedQueries = ["DELETE FROM t"] := by
  have hfails : (match misfitBehind.openCursor deleting with
      | .error (.binding (.unencodable kind type)) c' =>
        decide (kind = .text ∧ type = Oid.int4 ∧ c'.engine.executedQueries = ["DELETE FROM t"])
      | _ => false) = true := by decide +kernel
  split at hfails
  · next kind type c' h =>
    obtain ⟨rfl, rfl, hqueries⟩ := of_decide_eq_true hfails
    exact ⟨c', h, hqueries⟩
  · cases hfails

/-- Not every command that fails to bind its parameters has executed nothing. -/
theorem not_all_binding_faults_unexecuted :
    ¬ ∀ (command : Command) (c c' : Connection) (fault : BindingFault), c.phase = .idle →
      (command.openCursor c = .error (.binding fault) c' ∨
        command.scalar c = .error (.binding fault) c' ∨
        command.nonQuery c = .error (.binding fault) c') →
      c'.engine.executedQueries = c.engine.executedQueries := by
  intro hall
  obtain ⟨c', hfails, hqueries⟩ := openCursor_misfitBehind
  have hsame := hall misfitBehind deleting c' _ rfl (.inl hfails)
  rw [hqueries] at hsame
  cases hsame

theorem binding_fault_leaves_misfitBehind :
    ∃ c', misfitBehind.openCursor deleting =
        .error (.binding (.unencodable .text Oid.int4)) c' ∧
      (BindingFault.unencodable .text Oid.int4).Leaves misfitBehind deleting c' := by
  obtain ⟨c', hfails, -⟩ := openCursor_misfitBehind
  exact ⟨c', hfails, binding_fault_leaves (.inl hfails)⟩

end Command
end SqlSession
