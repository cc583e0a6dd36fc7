import SqlSession.Proofs.Catalog.Loading
import SqlSession.Proofs.Engine.Agreement

/-!
# Engines that answer alike have the same types

Two engines with the same script keep the answer to the catalog query under handles of their own.  What
is read through these handles is the same, so a load has the same types, or fails with the same error
(`Catalog.verdict_load_of_alike`).  In particular a load that is done again goes as it went before.
-/

namespace SqlSession

open Effect

variable {e e' : Engine}

namespace Catalog

open Engine

variable {t t' : TableHandle} {columns : List Column} {rows : List (List Value)}

theorem cell_of_agree (h : Alike e e') {b b' : RowBuffer} (hb : b.Agree e e' b')
    (described : List Column) (i : Nat) : cell e' described b' i = cell e described b i := by
  unfold cell
  obtain ⟨hnone, hnone'⟩ | ⟨d, d', null, hcell, hcell', hd⟩ := hb.cell? i
  · rw [hnone, hnone']
  · rw [hcell, hcell']
    cases null with
    | true => rfl
    | false => exact decode_of_agree h hd _

theorem readRow_of_agree (h : Alike e e') (ht : e.Shows t columns rows)
    (ht' : e'.Shows t' columns rows) {b b' : RowBuffer} (hb : b.Agree e e' b') :
    readRow e' t' b' = readRow e t b := by
  unfold readRow
  simp only [describedColumns_of_shows h ht ht', cell_of_agree h hb]

theorem readRows_of_agree (h : Alike e e') (ht : e.Shows t columns rows)
    (ht' : e'.Shows t' columns rows) {b b' : RowBuffer} (hb : b.Agree e e' b') {count index : Nat}
    (hcount : index + count ≤ rows.length) :
    readRows e' t' count index b' = readRows e t count index b := by
  induction count generalizing index b b' with
  | zero => rfl
  | succ count ih =>
    rw [readRows_succ, readRows_succ]
    obtain ⟨err, hfetch, hfetch'⟩ | ⟨b₁, b₁', hfetch, hfetch', hb₁⟩ :=
      fetchRow_of_agree h ht ht' hb (by omega : index < rows.length)
    · rw [hfetch, hfetch']
      rfl
    · rw [hfetch, hfetch']
      show (readRow e' t' b₁' >>= fun row => _) = (readRow e t b₁ >>= fun row => _)
      rw [readRow_of_agree h ht ht' hb₁, ih hb₁ (by omega)]

theorem types_of_answered (h : Alike e e') {r : Response} {o o' : Outcome} (ho : e.Answered r o)
    (ho' : e'.Answered r o') : types e' o' = types e o := by
  unfold types
  cases ho with
  | command processed =>
    cases ho'
    rfl
  | table hshows =>
    cases ho' with
    | table hshows' =>
      congr 1
      unfold readTable columnCount
      dsimp only
      rw [hshows.columns_eq, hshows'.columns_eq,
        readRows_of_agree h hshows hshows' (RowBuffer.agree_blank _) (by omega)]

/-- An engine that reports its own row counts has answered the catalog query as scripted. -/
theorem answered_of_sent (hcount : e.faults.rowCount = none) {outcome : Outcome} {e₁ : Engine}
    (hsent : Request.execute query true e = .ok outcome e₁) :
    Continues e e₁ ∧ e₁.Answered (e.response query) outcome := by
  obtain ⟨t, hcall, rfl⟩ := Request.outcome_eq_ok hsent
  have hlog := continues_log e (.execute query true)
  obtain ⟨hcontinues, hanswered⟩ := run_eq_ok hcall
  have hall := hlog.trans hcontinues
  refine ⟨hall, ?_⟩
  rw [reportedRows, hall.alike.faults, hcount]
  rw [hlog.alike.response] at hanswered
  exact hanswered

theorem verdict_load_of_alike (h : Alike e e') (hcount : e.faults.rowCount = none) :
    verdict (load e') = verdict (load e) := by
  have hresponse := h.response query
  have hcount' : e'.faults.rowCount = none := by rw [h.faults, hcount]
  cases hsent : Request.execute query true e with
  | error err e₁ =>
    obtain ⟨r, hr, rfl⟩ := Request.execute_eq_error hsent
    cases hsent' : Request.execute query true e' with
    | ok outcome e₁' => exact absurd (hresponse.trans hr) (Request.execute_eq_ok hsent' r)
    | error err' e₁' =>
      obtain ⟨r', hr', rfl⟩ := Request.execute_eq_error hsent'
      rw [hresponse, hr] at hr'
      cases hr'
      rw [load_of_refused hsent, load_of_refused hsent']
      rfl
  | ok outcome e₁ =>
    cases hsent' : Request.execute query true e' with
    | error err' e₁' =>
      obtain ⟨r', hr', -⟩ := Request.execute_eq_error hsent'
      exact absurd (hresponse.symm.trans hr') (Request.execute_eq_ok hsent r')
    | ok outcome' e₁' =>
      obtain ⟨hcontinues, hanswered⟩ := answered_of_sent hcount hsent
      obtain ⟨hcontinues', hanswered'⟩ := answered_of_sent hcount' hsent'
      rw [hresponse] at hanswered'
      have halike : Alike e₁ e₁' := by
        constructor
        · rw [hcontinues'.alike.script, h.script, hcontinues.alike.script]
        · rw [hcontinues'.alike.faults, h.faults, hcontinues.alike.faults]
      rw [load_of_sent hsent, load_of_sent hsent', verdict_ofExcept, verdict_ofExcept]
      exact types_of_answered halike hanswered hanswered'

end Catalog

/-- A registry shows the same types after a use of it, whether that has loaded them or not. -/
theorem Registry.view_withTypes {α : Type} {question : TypeMap → Except Error α} (r : Registry)
    {e : Engine} (hcount : e.faults.rowCount = none) :
    (final (withTypes question (r, e))).1.view (final (withTypes question (r, e))).2 = r.view e := by
  obtain ⟨_ | m⟩ := r
  · have hload : verdict (Catalog.load (final (Catalog.load e))) = verdict (Catalog.load e) :=
      Catalog.verdict_load_of_alike (Engine.ofQueries_continues.load e).alike hcount
    rw [final_withTypes_of_empty]
    dsimp only
    unfold view
    cases hverdict : verdict (Catalog.load e) with
    | ok m => rfl
    | error err => exact hload.trans hverdict
  · rw [withTypes_of_loaded, final_ofExcept]

end SqlSession
