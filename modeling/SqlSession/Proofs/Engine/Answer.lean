import SqlSession.Engine.Request
import SqlSession.Proofs.Effect
import SqlSession.Proofs.Engine.Arena

/-!
# What the engine has answered

`Engine.Answered e r o` says that `o` is the outcome of a query that was answered by `r`, and that
the table of `o` still stands in `e`.  A query that has been run was answered as the script says, and
the script is not changed by anything that is run (`run_eq_ok`).
-/

namespace SqlSession
namespace Engine

/-! ## The script -/

/-- Two engines have the same script and the same faults, so they answer alike. -/
structure Alike (e e' : Engine) : Prop where
  script : e'.script = e.script
  faults : e'.faults = e.faults

theorem Alike.refl (e : Engine) : Alike e e := ⟨rfl, rfl⟩

theorem Alike.trans {e e' e'' : Engine} (h : Alike e e') (h' : Alike e' e'') : Alike e e'' :=
  ⟨h'.script.trans h.script, h'.faults.trans h.faults⟩

theorem Alike.response {e e' : Engine} (h : Alike e e') (query : String) :
    e'.response query = e.response query := by
  simp only [Engine.response, scripted?, h.script]

/-- The engine has done more, and has kept what it had. -/
structure Continues (e e' : Engine) : Prop where
  keeps : Keeps e e'
  alike : Alike e e'

theorem Continues.refl (e : Engine) : Continues e e := ⟨.refl e, .refl e⟩

theorem Continues.trans {e e' e'' : Engine} (h : Continues e e') (h' : Continues e' e'') :
    Continues e e'' :=
  ⟨h.keeps.trans h'.keeps, h.alike.trans h'.alike⟩

theorem continues_log (e : Engine) (call : Call) : Continues e (e.log call) :=
  ⟨⟨.refl _, .refl _, .refl _⟩, ⟨rfl, rfl⟩⟩

/-! ## Answers -/

/-- The outcome of a query that was answered in this way.  A table is shown by the engine as it was
scripted. -/
inductive Answered (e : Engine) : Response → Outcome → Prop
  | table {t : TableHandle} {columns : List Column} {rows : List (List Value)}
      (shows : e.Shows t columns rows) : Answered e (.rows columns rows) ⟨some t, rows.length⟩
  | command (processed : Nat) : Answered e (.command processed) ⟨none, processed⟩

theorem Answered.mono {e e' : Engine} (h : Keeps e e') {r : Response} {o : Outcome}
    (ho : e.Answered r o) : e'.Answered r o := by
  cases ho with
  | table hshows => exact .table (hshows.mono h)
  | command processed => exact .command processed

/-- A query that has been run was answered as scripted, and the row count goes with the answer. -/
theorem run_eq_ok {e e' : Engine} {query : String} {t : Option TableHandle}
    (h : Engine.run query e = .ok t e') :
    Continues e e' ∧ e'.Answered (e.response query) ⟨t, e'.rowCount⟩ := by
  unfold Engine.run at h
  split at h
  · next columns rows hr =>
    cases h
    rw [hr]
    have hvalues := storeRows_within rows e.values
    refine ⟨⟨⟨.refl _, Arena.within_push _ _, hvalues⟩, ⟨rfl, rfl⟩⟩, .table ?_⟩
    exact ⟨_, Array.getElem?_push_size, rowShows_storeRows (.refl _)⟩
  · next processed hr =>
    cases h
    rw [hr]
    exact ⟨⟨⟨.refl _, .refl _, .refl _⟩, ⟨rfl, rfl⟩⟩, .command processed⟩
  · cases h

theorem prepare_ok {e e' : Engine} {query : String} {types : List Oid} {p : PlanHandle}
    (h : Engine.prepare query types e = .ok p e') :
    p = ⟨e.plans.size⟩ ∧
      e' = { e.log (.prepare query types) with plans := e.plans.push query } := by
  unfold Engine.prepare at h
  dsimp only at h
  split at h
  · split at h
    · cases h
    · cases h
      exact ⟨rfl, rfl⟩
  · cases h
    exact ⟨rfl, rfl⟩

theorem prepare_eq_ok {e e' : Engine} {query : String} {types : List Oid} {p : PlanHandle}
    (h : Engine.prepare query types e = .ok p e') :
    Continues e e' ∧ e'.plans[p.index]? = some query := by
  obtain ⟨rfl, rfl⟩ := prepare_ok h
  exact ⟨⟨⟨Arena.within_push _ _, .refl _, .refl _⟩, ⟨rfl, rfl⟩⟩, Array.getElem?_push_size⟩

end Engine

/-! ## Requests -/

namespace Request

theorem guarded_eq_ok {α : Type} {call : Native α} {e e' : Engine} {a : α} :
    guarded call e = .ok a e' ↔ call e = .ok a e' := by
  unfold guarded
  cases h : call e with
  | ok b t => simp
  | error r t => simp

theorem outcome_eq_ok {call : Native (Option TableHandle)} {e e' : Engine} {o : Outcome}
    (h : outcome call e = .ok o e') :
    ∃ t, call e = .ok t e' ∧ o = ⟨t, e'.reportedRows⟩ := by
  obtain ⟨t, e₁, hcall, h⟩ := Effect.bind_eq_ok.mp h
  cases h
  exact ⟨t, guarded_eq_ok.mp hcall, rfl⟩

end Request

end SqlSession
