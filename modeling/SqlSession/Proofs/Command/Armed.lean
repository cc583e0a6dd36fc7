import SqlSession.Cursor.Lifetime
import SqlSession.Engine.Setting
import SqlSession.Proofs.Command.Opening
import SqlSession.Proofs.Effect

/-!
# Engines that will fail to fetch a row

An engine can be told that the row at one position cannot be fetched from any table.  Nobody notices
this before the row is fetched: queries are prepared and executed as before, and so a command is opened
as before (`Command.openCursor_armed`).
-/

namespace SqlSession

open Effect

namespace Engine

/-- The engine, which will fail to fetch the row at a position. -/
def armed (row : Nat) (e : Engine) : Engine := e.configure (.failFetch row)

variable {e : Engine} {row : Nat}

theorem fetchRow_armed_self (t : TableHandle) (b : RowBuffer) :
    (e.armed row).fetchRow row t b = .error (.state (.fetch row)) := by
  unfold fetchRow
  exact if_pos rfl

theorem fetchRow_armed_of_ne (he : e.faults.fetch = none) {index : Nat} (h : index ≠ row)
    (t : TableHandle) (b : RowBuffer) : (e.armed row).fetchRow index t b = e.fetchRow index t b := by
  have harmed : ¬ (e.armed row).faults.fetch = some index := fun heq => h (Option.some.inj heq).symm
  have hunarmed : ¬ e.faults.fetch = some index := by
    rw [he]
    nofun
  unfold fetchRow
  rw [if_neg harmed, if_neg hunarmed]
  rfl

/-! ## Queries -/

theorem run_armed (query : String) : Unaware (armed row) (run query) := by
  intro e
  have hresponse : (e.armed row).response query = e.response query := rfl
  unfold run
  rw [hresponse]
  cases e.response query <;> rfl

theorem prepare_armed (query : String) (types : List Oid) :
    Unaware (armed row) (prepare query types) := by
  intro e
  have hscripted : ∀ call, ((e.armed row).log call).scripted? query = (e.log call).scripted? query :=
    fun _ => rfl
  unfold prepare
  dsimp only
  rw [hscripted]
  split
  · split <;> rfl
  · rfl

theorem executePlan_armed (plan : PlanHandle) (arguments : List Datum) (markers : List Char) :
    Unaware (armed row) (executePlan plan arguments markers) := by
  intro e
  unfold executePlan
  exact run_armed _ (e.log _)

theorem execute_armed (query : String) (readOnly : Bool) :
    Unaware (armed row) (execute query readOnly) := by
  intro e
  unfold execute
  exact run_armed query (e.log _)

theorem encode_armed (type : Oid) (v : Value) : Unaware (armed row) (encode type v) := by
  intro e
  unfold encode
  split <;> rfl

end Engine

namespace Request

variable {row : Nat}

theorem guarded_armed {α : Type} {call : Native α} (h : Unaware (Engine.armed row) call) :
    Unaware (Engine.armed row) (guarded call) := by
  intro e
  unfold guarded
  rw [h e]
  cases call e <;> rfl

theorem outcome_armed {call : Native (Option TableHandle)} (h : Unaware (Engine.armed row) call) :
    Unaware (Engine.armed row) (outcome call) := by
  refine (guarded_armed h).bind fun table => ?_
  exact fun e => rfl

end Request

/-! ## Commands -/

theorem Argument.ofParameter_armed {row : Nat} (p : Parameter) :
    Unaware (Engine.armed row) (ofParameter p) := by
  unfold ofParameter
  split
  · exact unaware_pure _
  · exact (Engine.encode_armed _ _).bind fun d => unaware_pure _

namespace PlannedStatement

variable {row : Nat}

theorem send_armed (s : PlannedStatement) : Unaware (Engine.armed row) s.send := by
  unfold send
  split
  · exact Request.outcome_armed (Engine.execute_armed _ _)
  · refine (Unaware.mapM Argument.ofParameter_armed _).bind fun arguments => ?_
    refine (Request.guarded_armed (Engine.prepare_armed _ _)).bind fun plan => ?_
    exact Request.outcome_armed (Engine.executePlan_armed _ _ _)

theorem sendAll_armed (statements : List PlannedStatement) :
    Unaware (Engine.armed row) (sendAll statements) := Unaware.mapM send_armed statements

end PlannedStatement

/-- The connection, whose engine will fail to fetch the row at a position. -/
def Connection.armed (row : Nat) (c : Connection) : Connection := { c with engine := c.engine.armed row }

namespace Connection

variable {row : Nat} {c : Connection}

theorem fetching_armed (c : Connection) (row : Nat) (e : Engine) :
    (c.armed row).fetching (e.armed row) = (c.fetching e).armed row ∧
      (c.armed row).beginExecution.1 = c.beginExecution.1 := by
  unfold fetching beginExecution
  have hbinding : (c.armed row).binding = c.binding := rfl
  rw [hbinding]
  split <;> exact ⟨rfl, rfl⟩

theorem endCursor_armed (ownsBinding closes : Bool) :
    (c.armed row).endCursor ownsBinding closes = (c.endCursor ownsBinding closes).armed row := by
  cases closes with
  | false => rfl
  | true =>
    have hphase : ((c.armed row).endExecution ownsBinding).phase = (c.endExecution ownsBinding).phase :=
      rfl
    unfold endCursor
    dsimp only
    rw [if_pos rfl, if_pos rfl]
    unfold close
    rw [hphase]
    split <;> rfl

end Connection

namespace Command

variable {row : Nat}

theorem openCursor_armed (command : Command) :
    Unaware (Connection.armed row) command.openCursor := by
  intro c
  cases hready : c.checkReady with
  | error err =>
    rw [openCursor_of_busy hready]
    exact openCursor_of_busy hready
  | ok ready =>
    have hidle : c.phase = .idle := Connection.checkReady_eq_ok.mp hready
    cases hplan : plan c.config.numberNamed command.parts with
    | error err =>
      rw [openCursor_of_unplanned hidle hplan]
      exact openCursor_of_unplanned hidle hplan
    | ok statements =>
      have harmed : (c.armed row).phase = .idle := hidle
      have hsent : PlannedStatement.sendAll statements (c.armed row).engine = _ :=
        PlannedStatement.sendAll_armed statements c.engine
      rw [openCursor_of_planned hidle hplan, openCursor_of_planned harmed hplan, hsent]
      cases PlannedStatement.sendAll statements c.engine with
      | error err e => rfl
      | ok outcomes e =>
        obtain ⟨hfetching, howns⟩ := Connection.fetching_armed c row e
        have hcursor := congrArg (fun owns =>
          ({ outcomes, behavior := command.behavior, ownsBinding := owns } : Cursor)) howns
        exact congrArg₂ EStateM.Result.ok hcursor hfetching

end Command
end SqlSession
