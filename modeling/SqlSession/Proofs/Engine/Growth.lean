import Mathlib.Data.List.Basic
import SqlSession.Proofs.Engine.Answer

/-!
# What an engine has logged and made

The log and the tables of an engine only grow, and every native call says by what.
`Engine.Grows e e' calls tables` puts both in order: the calls that the log shows since `e`, and the
handles of the tables that have been made since then.
-/

namespace SqlSession
namespace Engine

structure Grows (e e' : Engine) (calls : List Call) (tables : List TableHandle) : Prop where
  calls : e'.calls.toList = e.calls.toList ++ calls
  size : e'.tables.size = e.tables.size + tables.length
  tables : tables = (List.range' e.tables.size tables.length).map TableHandle.mk

theorem Grows.of_eq {e e' : Engine} (hcalls : e'.calls = e.calls) (htables : e'.tables = e.tables) :
    Grows e e' [] [] :=
  ⟨by rw [hcalls, List.append_nil], by rw [htables]; rfl, rfl⟩

theorem Grows.trans {e e' e'' : Engine} {cs ds : List Call} {ts us : List TableHandle}
    (h : Grows e e' cs ts) (h' : Grows e' e'' ds us) : Grows e e'' (cs ++ ds) (ts ++ us) where
  calls := by rw [h'.calls, h.calls, List.append_assoc]
  size := by rw [h'.size, h.size, List.length_append, Nat.add_assoc]
  tables := by
    have hus := h'.tables
    rw [h.size] at hus
    rw [List.length_append, ← List.range'_append_1, List.map_append, ← h.tables, ← hus]

theorem grows_log (e : Engine) (call : Call) : Grows e (e.log call) [call] [] :=
  ⟨by simp [log], rfl, rfl⟩

/-- The engine has taken more values in and done nothing else. -/
def Stores (e e' : Engine) : Prop :=
  ∃ values, e' = { e with values := values } ∧ Arena.Within e.values values

theorem Stores.refl (e : Engine) : Stores e e := ⟨e.values, rfl, .refl _⟩

theorem Stores.trans {e e' e'' : Engine} (h : Stores e e') (h' : Stores e' e'') : Stores e e'' := by
  obtain ⟨values, rfl, hvalues⟩ := h
  obtain ⟨values', rfl, hvalues'⟩ := h'
  exact ⟨values', rfl, hvalues.trans hvalues'⟩

theorem Stores.continues {e e' : Engine} (h : Stores e e') : Continues e e' := by
  obtain ⟨values, rfl, hvalues⟩ := h
  exact ⟨⟨.refl _, .refl _, hvalues⟩, ⟨rfl, rfl⟩⟩

theorem Stores.grows {e e' : Engine} (h : Stores e e') : Grows e e' [] [] := by
  obtain ⟨values, rfl, -⟩ := h
  exact .of_eq rfl rfl

/-- The outcome of a query that was answered by `r`, with the row count that the engine reports: the
one of the answer, unless another one has been set. -/
def Reports (e : Engine) (r : Response) (o : Outcome) : Prop :=
  ∃ own, e.Answered r own ∧ o = ⟨own.table, e.faults.rowCount.getD own.processed⟩

theorem Reports.mono {e e' : Engine} (h : Continues e e') {r : Response} {o : Outcome}
    (ho : e.Reports r o) : e'.Reports r o := by
  obtain ⟨own, hown, rfl⟩ := ho
  exact ⟨own, hown.mono h.keeps, by rw [h.alike.faults]⟩

/-! ## Native calls -/

variable {e e' : Engine} {query : String} {types : List Oid} {h : RecordHandle}

theorem encode_stores {type : Oid} {v : Value} {d : Datum}
    (hok : Engine.encode type v e = .ok d e') : Stores e e' ∧ e'.value? d = some v := by
  unfold Engine.encode at hok
  split at hok
  · cases hok
    exact ⟨⟨_, rfl, Arena.within_push _ _⟩, value?_store (.refl _)⟩
  · cases hok

theorem encode_eq_error {type : Oid} {v : Value} {err : Error}
    (herr : Engine.encode type v e = .error err e') :
    e' = e ∧ fits type v = false ∧ err = .binding (.unencodable v.kind type) := by
  unfold Engine.encode at herr
  split at herr
  · cases herr
  · next hfits =>
    cases herr
    exact ⟨rfl, by simpa using hfits, rfl⟩

/-- A call that fails with a record has that record for callers to read. -/
theorem raise_eq_error {α : Type} {r : ErrorRecord}
    (herr : (raise r : Native α) e = .error h e') : Grows e e' [] [] ∧ e'.record h = r := by
  cases herr
  exact ⟨.of_eq rfl rfl, by simp [record]⟩

/-- What comes of a call that ends a transaction.  It is logged, and the fault that is there for it, if
there is one, is raised.  Nothing else has changed then but the faults. -/
inductive Completes (e : Engine) (call : Call) :
    Option ErrorRecord → EStateM.Result RecordHandle Engine Unit → Prop
  | done : Completes e call none (.ok () (e.log call))
  | failed (r : ErrorRecord) (faults : Faults) :
      Completes e call (some r) (raise r { e.log call with faults })

theorem commit_completes (e : Engine) : Completes e .commit e.faults.commit (commit e) := by
  unfold commit
  dsimp only [log]
  cases e.faults.commit with
  | none => exact .done
  | some r => exact .failed r _

theorem rollback_completes (e : Engine) : Completes e .rollback e.faults.rollback (rollback e) := by
  unfold rollback
  dsimp only [log]
  cases e.faults.rollback with
  | none => exact .done
  | some r => exact .failed r _

theorem Completes.of_ok {call : Call} {fault : Option ErrorRecord}
    {result : EStateM.Result RecordHandle Engine Unit} (hcompletes : Completes e call fault result)
    (hok : result = .ok () e') : fault = none ∧ e' = e.log call := by
  cases hcompletes with
  | done =>
    cases hok
    exact ⟨rfl, rfl⟩
  | failed r faults => cases hok

theorem Completes.of_error {call : Call} {fault : Option ErrorRecord}
    {result : EStateM.Result RecordHandle Engine Unit} (hcompletes : Completes e call fault result)
    (herr : result = .error h e') :
    fault = some (e'.record h) ∧ e'.calls = e.calls.push call := by
  cases hcompletes with
  | done => cases herr
  | failed r faults =>
    obtain ⟨-, hrecord⟩ := raise_eq_error herr
    cases herr
    exact ⟨congrArg some hrecord.symm, rfl⟩

theorem run_grows {t : Option TableHandle} (hok : run query e = .ok t e') :
    Grows e e' [] t.toList := by
  unfold run at hok
  split at hok
  · cases hok
    exact ⟨by simp, by simp, rfl⟩
  · cases hok
    exact .of_eq rfl rfl
  · cases hok

theorem run_eq_error (herr : run query e = .error h e') :
    ∃ r, e.response query = .failure r ∧ Grows e e' [] [] ∧ e'.record h = r := by
  unfold run at herr
  split at herr
  · cases herr
  · cases herr
  · next r hr => exact ⟨r, hr, raise_eq_error herr⟩

theorem prepare_grows {p : PlanHandle} (hok : prepare query types e = .ok p e') :
    Grows e e' [.prepare query types] [] := by
  obtain ⟨-, rfl⟩ := prepare_ok hok
  exact (grows_log e _).trans (.of_eq rfl rfl)

/-- A query that cannot be prepared is scripted to be a syntax error. -/
theorem prepare_eq_error (herr : prepare query types e = .error h e') :
    ∃ r, e.scripted? query = some (.failure r) ∧
      some r.code = SqlState.encode? SqlState.syntaxError ∧
      Grows e e' [.prepare query types] [] ∧ e'.record h = r := by
  unfold prepare at herr
  dsimp only at herr
  split at herr
  · next r hr =>
    split at herr
    · next hcode =>
      obtain ⟨hgrows, hrecord⟩ := raise_eq_error herr
      exact ⟨r, hr, hcode, (grows_log e _).trans hgrows, hrecord⟩
    · cases herr
  · cases herr

end Engine

/-! ## Requests -/

namespace Request

open Engine

theorem grows_release (e : Engine) (h : RecordHandle) : Grows e (e.release h) [] [] :=
  .of_eq rfl rfl

/-- The error of a request is what callers see of the record of the native call. -/
theorem guarded_eq_error {α : Type} {call : Native α} {e e' : Engine} {err : Error}
    (herr : guarded call e = .error err e') :
    ∃ h e₁, call e = .error h e₁ ∧ e' = e₁.release h ∧
      err = .database (.ofRecord (e₁.record h)) := by
  unfold guarded at herr
  cases hcall : call e with
  | ok a e₁ =>
    rw [hcall] at herr
    cases herr
  | error h e₁ =>
    rw [hcall] at herr
    cases herr
    exact ⟨h, e₁, rfl, rfl, rfl⟩

theorem outcome_eq_error {call : Native (Option TableHandle)} {e e' : Engine} {err : Error}
    (herr : outcome call e = .error err e') :
    ∃ h e₁, call e = .error h e₁ ∧ e' = e₁.release h ∧
      err = .database (.ofRecord (e₁.record h)) := by
  obtain herr | ⟨t, e₁, -, herr⟩ := Effect.bind_eq_error.mp herr
  · exact guarded_eq_error herr
  · cases herr

end Request
end SqlSession
