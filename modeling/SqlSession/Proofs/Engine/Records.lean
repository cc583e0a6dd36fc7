import Mathlib.Logic.Relation
import SqlSession.Proofs.Engine.Growth

/-!
# Error records

A native call that fails leaves a record behind, under a handle that is new.  It is the record that the
engine has for this call (`Engine.recordFor?`).  What callers see of a record is `DatabaseError.Shows`.
A record is given up by its handle, which leaves the place of the record empty and all other records
where they are.

Work that goes well is made of calls that succeed (`Engine.Works`).  These raise no record and change no
script, so an engine has the same records for its calls before such work and after it.
-/

namespace SqlSession

/-- The error shows everything of a record that callers are to see. -/
structure DatabaseError.Shows (d : DatabaseError) (r : ErrorRecord) : Prop where
  level : d.level = r.level
  severity : d.severity = severityName r.level
  code : d.code = r.code
  state : d.state = SqlState.decode r.code
  message : d.message = r.message.getD ""
  detail : d.detail = r.detail
  hint : d.hint = r.hint
  position : d.position = r.position
  internalPosition : d.internalPosition = r.internalPosition
  internalQuery : d.internalQuery = r.internalQuery
  context : d.context = r.context
  schema : d.schema = r.schema
  table : d.table = r.table
  column : d.column = r.column
  dataType : d.dataType = r.dataType
  constraint : d.constraint = r.constraint
  file : d.file = r.file
  line : ∀ text, d.line = some text ↔ 0 < r.line.toInt ∧ text = toString r.line.toInt
  routine : d.routine = r.routine

theorem DatabaseError.shows_ofRecord (r : ErrorRecord) : (ofRecord r).Shows r where
  level := rfl
  severity := rfl
  code := rfl
  state := rfl
  message := rfl
  detail := rfl
  hint := rfl
  position := rfl
  internalPosition := rfl
  internalQuery := rfl
  context := rfl
  schema := rfl
  table := rfl
  column := rfl
  dataType := rfl
  constraint := rfl
  file := rfl
  line text := by
    unfold ofRecord
    dsimp only
    split
    · next hline => simp [hline, eq_comm]
    · next hline => simp [hline]
  routine := rfl

/-- An error that shows a record is what callers see of this record. -/
theorem DatabaseError.Shows.eq_ofRecord {d : DatabaseError} {r : ErrorRecord} (h : d.Shows r) :
    d = ofRecord r := by
  have hline : d.line = (ofRecord r).line := by
    refine Option.ext fun text => ?_
    rw [h.line, (shows_ofRecord r).line]
  obtain ⟨hlevel, hseverity, hcode, hstate, hmessage, hdetail, hhint, hposition, hinternal, hquery,
    hcontext, hschema, htable, hcolumn, htype, hconstraint, hfile, -, hroutine⟩ := h
  cases d
  simp only [ofRecord, mk.injEq] at *
  exact ⟨hseverity, hlevel, hstate, hcode, hmessage, hdetail, hhint, hposition, hinternal, hquery,
    hcontext, hschema, htable, hcolumn, htype, hconstraint, hfile, hline, hroutine⟩

namespace Engine

/-! ## Raising a record -/

/-- A native call has failed with a handle. -/
inductive Fails (e : Engine) (h : RecordHandle) (e' : Engine) : Prop
  | prepare {query : String} {types : List Oid}
      (call : Engine.prepare query types e = .error h e') : Fails e h e'
  | executePlan {plan : PlanHandle} {arguments : List Datum} {markers : List Char}
      (call : Engine.executePlan plan arguments markers e = .error h e') : Fails e h e'
  | execute {query : String} {readOnly : Bool}
      (call : Engine.execute query readOnly e = .error h e') : Fails e h e'
  | commit (call : Engine.commit e = .error h e') : Fails e h e'
  | rollback (call : Engine.rollback e = .error h e') : Fails e h e'

/-- The engine has the same records, and none of them has been given up. -/
def SameRecords (e e' : Engine) : Prop := e'.records = e.records ∧ e'.releases = e.releases

theorem SameRecords.trans {e e' e'' : Engine} (h : SameRecords e e') (h' : SameRecords e' e'') :
    SameRecords e e'' := ⟨h'.1.trans h.1, h'.2.trans h.2⟩

/-- The engine has one more record, which is behind the handle. -/
structure Raised (e : Engine) (h : RecordHandle) (r : ErrorRecord) (e' : Engine) : Prop where
  index : h.index = e.records.size
  records : e'.records = e.records.push (some r)
  releases : e'.releases = e.releases

theorem Raised.record {e e' : Engine} {h : RecordHandle} {r : ErrorRecord} (hraised : Raised e h r e') :
    e'.record h = r := by
  rw [Engine.record, hraised.records, hraised.index, Array.getElem?_push_size]
  rfl

/-- A call has raised a record if it has failed, and has done nothing with records otherwise. -/
def RaisesFrom {α : Type} (e : Engine) : EStateM.Result RecordHandle Engine α → Prop
  | .ok _ e' => SameRecords e e'
  | .error h e' => ∃ r, Raised e h r e'

def Raises {α : Type} (call : Native α) : Prop := ∀ e, RaisesFrom e (call e)

theorem RaisesFrom.of_same {α : Type} {e e₁ : Engine} (hsame : SameRecords e e₁)
    {result : EStateM.Result RecordHandle Engine α} (h : RaisesFrom e₁ result) :
    RaisesFrom e result := by
  cases result with
  | ok a e' => exact hsame.trans h
  | error handle e' =>
    obtain ⟨r, hindex, hrecords, hreleases⟩ := h
    rw [hsame.1] at hindex hrecords
    rw [hsame.2] at hreleases
    exact ⟨r, hindex, hrecords, hreleases⟩

theorem raise_raises {α : Type} (r : ErrorRecord) : Raises (raise r : Native α) :=
  fun _ => ⟨r, rfl, rfl, rfl⟩

theorem run_raises (query : String) : Raises (run query) := by
  intro e
  unfold run
  split
  · exact ⟨rfl, rfl⟩
  · exact ⟨rfl, rfl⟩
  · exact raise_raises _ e

theorem prepare_raises (query : String) (types : List Oid) : Raises (prepare query types) := by
  intro e
  unfold prepare
  dsimp only
  split
  · split
    · refine .of_same ?_ (raise_raises _ _)
      exact ⟨rfl, rfl⟩
    · exact ⟨rfl, rfl⟩
  · exact ⟨rfl, rfl⟩

theorem executePlan_raises (plan : PlanHandle) (arguments : List Datum) (markers : List Char) :
    Raises (executePlan plan arguments markers) := by
  intro e
  refine .of_same ?_ (run_raises _ _)
  exact ⟨rfl, rfl⟩

theorem execute_raises (query : String) (readOnly : Bool) : Raises (execute query readOnly) := by
  intro e
  refine .of_same ?_ (run_raises _ _)
  exact ⟨rfl, rfl⟩

theorem Completes.raisesFrom {e : Engine} {call : Call} {fault : Option ErrorRecord}
    {result : EStateM.Result RecordHandle Engine Unit} (h : Completes e call fault result) :
    RaisesFrom e result := by
  cases h with
  | done => exact ⟨rfl, rfl⟩
  | failed r faults =>
    refine .of_same ?_ (raise_raises r _)
    exact ⟨rfl, rfl⟩

theorem commit_raises : Raises commit := fun e => (commit_completes e).raisesFrom

theorem rollback_raises : Raises rollback := fun e => (rollback_completes e).raisesFrom

/-- Every failure of a native call raises one record. -/
theorem Fails.raised {e e' : Engine} {h : RecordHandle} (hfails : Fails e h e') :
    ∃ r, Raised e h r e' := by
  have hraised : ∀ {α : Type} {call : Native α}, Raises call → call e = .error h e' →
      ∃ r, Raised e h r e' := by
    intro α call hraises hcall
    have hresult := hraises e
    rw [hcall] at hresult
    exact hresult
  cases hfails with
  | prepare call => exact hraised (prepare_raises _ _) call
  | executePlan call => exact hraised (executePlan_raises _ _ _) call
  | execute call => exact hraised (execute_raises _ _) call
  | commit call => exact hraised commit_raises call
  | rollback call => exact hraised rollback_raises call

/-- The record that a call raises if it fails. -/
def recordFor? (e : Engine) : Call → Option ErrorRecord
  | .prepare query _ | .executePlan query _ _ | .execute query _ =>
    match e.response query with
    | .failure r => some r
    | _ => none
  | .commit => e.faults.commit
  | .rollback => e.faults.rollback

theorem recordFor?_of_failure {e : Engine} {query : String} {r : ErrorRecord}
    (h : e.response query = .failure r) :
    (∀ types, e.recordFor? (.prepare query types) = some r) ∧
      (∀ arguments markers, e.recordFor? (.executePlan query arguments markers) = some r) ∧
      ∀ readOnly, e.recordFor? (.execute query readOnly) = some r := by
  refine ⟨fun _ => ?_, fun _ _ => ?_, fun _ => ?_⟩ <;> simp only [recordFor?, h]

theorem Alike.recordFor? {e e' : Engine} (h : Alike e e') (call : Call) :
    e'.recordFor? call = e.recordFor? call := by
  cases call <;> simp only [Engine.recordFor?, h.response, h.faults]

/-- A call that fails is the last one in the log, and raises the record that the engine has for it. -/
structure RaisesFor (e : Engine) (call : Call) (h : RecordHandle) (r : ErrorRecord) (e' : Engine) :
    Prop where
  logged : e'.calls = e.calls.push call
  record : e.recordFor? call = some r
  raised : Raised e h r e'

theorem Fails.raisesFor {e e' : Engine} {h : RecordHandle} (hfails : Fails e h e') :
    ∃ call r, RaisesFor e call h r e' := by
  obtain ⟨r, hraised⟩ := hfails.raised
  have hrecord := hraised.record
  -- Whatever fails in the run of a query does not reach the log again.
  have hrun : ∀ {query : String} {call : Call}, Engine.run query (e.log call) = .error h e' →
      e'.calls = e.calls.push call ∧ e.response query = .failure r := by
    intro query call hcall
    obtain ⟨r', hresponse, hgrows, hrecord'⟩ := run_eq_error hcall
    obtain rfl : r' = r := hrecord'.symm.trans hrecord
    refine ⟨Array.toList_inj.mp ?_, hresponse⟩
    rw [hgrows.calls, List.append_nil]
    rfl
  cases hfails with
  | @prepare query types call =>
    obtain ⟨r', hscripted, -, hgrows, hrecord'⟩ := prepare_eq_error call
    obtain rfl : r' = r := hrecord'.symm.trans hrecord
    have hresponse : e.response query = .failure r' := by rw [response, hscripted]
    refine ⟨.prepare query types, r', ⟨Array.toList_inj.mp ?_, ?_, hraised⟩⟩
    · rw [hgrows.calls, Array.toList_push]
    · exact (recordFor?_of_failure hresponse).1 types
  | @executePlan plan arguments markers call =>
    obtain ⟨hlogged, hresponse⟩ := hrun call
    exact ⟨_, r, hlogged, (recordFor?_of_failure hresponse).2.1 _ _, hraised⟩
  | @execute query readOnly call =>
    obtain ⟨hlogged, hresponse⟩ := hrun call
    exact ⟨_, r, hlogged, (recordFor?_of_failure hresponse).2.2 readOnly, hraised⟩
  | commit call =>
    obtain ⟨hfault, hlogged⟩ := (commit_completes e).of_error call
    exact ⟨.commit, r, ⟨hlogged, hfault.trans (congrArg some hrecord), hraised⟩⟩
  | rollback call =>
    obtain ⟨hfault, hlogged⟩ := (rollback_completes e).of_error call
    exact ⟨.rollback, r, ⟨hlogged, hfault.trans (congrArg some hrecord), hraised⟩⟩

/-! ## Work that goes well -/

/-- A native call has succeeded, or values have been taken in. -/
inductive Succeeds (e : Engine) (e' : Engine) : Prop
  | stores (stored : Stores e e') : Succeeds e e'
  | prepare {query : String} {types : List Oid} {plan : PlanHandle}
      (call : Engine.prepare query types e = .ok plan e') : Succeeds e e'
  | executePlan {plan : PlanHandle} {arguments : List Datum} {markers : List Char}
      {t : Option TableHandle} (call : Engine.executePlan plan arguments markers e = .ok t e') :
      Succeeds e e'
  | execute {query : String} {readOnly : Bool} {t : Option TableHandle}
      (call : Engine.execute query readOnly e = .ok t e') : Succeeds e e'
  | commit (call : Engine.commit e = .ok () e') : Succeeds e e'
  | rollback (call : Engine.rollback e = .ok () e') : Succeeds e e'

/-- One after the other, native calls have succeeded. -/
abbrev Works : Engine → Engine → Prop := Relation.ReflTransGen Succeeds

/-- The engine has the same records as before, and for the same calls. -/
structure Steady (e e' : Engine) : Prop where
  same : SameRecords e e'
  alike : Alike e e'

theorem Succeeds.steady {e e' : Engine} (h : Succeeds e e') : Steady e e' := by
  have hsame : ∀ {α : Type} {call : Native α} {a : α}, Raises call → call e = .ok a e' →
      SameRecords e e' := by
    intro α call a hraises hcall
    have hresult := hraises e
    rw [hcall] at hresult
    exact hresult
  cases h with
  | stores stored =>
    refine ⟨?_, stored.continues.alike⟩
    obtain ⟨values, rfl, -⟩ := stored
    exact ⟨rfl, rfl⟩
  | prepare call => exact ⟨hsame (prepare_raises _ _) call, (prepare_eq_ok call).1.alike⟩
  | executePlan call =>
    refine ⟨hsame (executePlan_raises _ _ _) call, ?_⟩
    exact (continues_log e _).alike.trans (run_eq_ok call).1.alike
  | execute call =>
    refine ⟨hsame (execute_raises _ _) call, ?_⟩
    exact (continues_log e _).alike.trans (run_eq_ok call).1.alike
  | commit call =>
    obtain ⟨-, rfl⟩ := (commit_completes e).of_ok call
    exact ⟨⟨rfl, rfl⟩, (continues_log e _).alike⟩
  | rollback call =>
    obtain ⟨-, rfl⟩ := (rollback_completes e).of_ok call
    exact ⟨⟨rfl, rfl⟩, (continues_log e _).alike⟩

theorem Works.steady {e e' : Engine} (h : Works e e') : Steady e e' := by
  induction h with
  | refl => exact ⟨⟨rfl, rfl⟩, .refl e⟩
  | tail _ hlast ih => exact ⟨ih.same.trans hlast.steady.same, ih.alike.trans hlast.steady.alike⟩

/-! ## Giving a record up -/

/-- To give up the last record leaves its place empty. -/
theorem Raised.release {e e' : Engine} {h : RecordHandle} {r : ErrorRecord}
    (hraised : Raised e h r e') :
    (e'.release h).records = e.records.push none ∧
      (e'.release h).releases = e.releases.push h := by
  unfold Engine.release
  rw [hraised.records, hraised.index, hraised.releases]
  refine ⟨?_, rfl⟩
  rw [← Array.toList_inj]
  simp

end Engine
end SqlSession
