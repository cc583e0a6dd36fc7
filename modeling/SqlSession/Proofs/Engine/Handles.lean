import Mathlib.Data.List.Nodup
import Mathlib.Data.List.ReduceOption
import SqlSession.Engine.Setting
import SqlSession.Proofs.Engine.Answer

/-!
# Handles

An engine answers with handles.  Whatever is done with the engine afterwards, each of them goes on to stand
for what it was handed out for, and no other handle is ever the same (`Engine.Issues`).  One operation
after the other numbers its handles on, so this goes on for any run of operations
(`Engine.issues_after`).
-/

namespace SqlSession

inductive Handle
  | plan (p : PlanHandle)
  | table (t : TableHandle)
  | datum (d : Datum)
  | record (h : RecordHandle)
deriving DecidableEq

/-- What a handle stands for.  An error record can be given up, and then its handle only tells that there
has been a failure. -/
inductive Meaning
  | query (text : String)
  | table (columns : List Column) (rows : List (List Value))
  | value (v : Value)
  | failure

/-- A handle and what it is handed out for. -/
abbrev Receipt := Handle × Meaning

/-- What the table of an answer stands for.  No other answer has a table. -/
def Response.meaning : Response → Meaning
  | .rows columns cells => .table columns cells
  | _ => .failure

namespace Engine

/-- The engine keeps this under the handle. -/
def Denotes (e : Engine) : Handle → Meaning → Prop
  | .plan p, .query text => e.plans[p.index]? = some text
  | .table t, .table columns rows => e.Shows t columns rows
  | .datum d, .value v => e.value? d = some v
  | .record h, .failure => h.index < e.records.size
  | _, _ => False

/-! ## Operations -/

/-- Whatever can change an engine: a setting, or a native call.  To read from an engine does not change
it. -/
inductive Operation
  | configure (setting : Setting)
  | prepare (query : String) (types : List Oid)
  | executePlan (plan : PlanHandle) (arguments : List Datum) (markers : List Char)
  | execute (query : String) (readOnly : Bool)
  | encode (type : Oid) (v : Value)
  | release (h : RecordHandle)
  | commit
  | rollback

/-- The datums in the cells of a table, which are handed out with its rows. -/
def cellDatums (e : Engine) (t : TableHandle) : List Datum :=
  match e.tables[t.index]? with
  | some table => table.rows.flatten.reduceOption
  | none => []

/-- The receipts of a query: its table, and the values in the cells. -/
def produced (r : Response) (t : Option TableHandle) (e : Engine) : List Receipt :=
  match t with
  | some t =>
    (.table t, Response.meaning r) ::
      (e.cellDatums t).map fun d => (.datum d, .value ((e.value? d).getD .null))
  | none => []

/-- The receipts of a native call, which has an error record if it fails. -/
def answered {α : Type} (issued : α → Engine → List Receipt) :
    EStateM.Result RecordHandle Engine α → List Receipt × Engine
  | .ok a e => (issued a e, e)
  | .error h e => ([(.record h, .failure)], e)

/-- The receipts of an operation, and the engine after it. -/
def perform (e : Engine) : Operation → List Receipt × Engine
  | .configure setting => ([], e.configure setting)
  | .prepare query types =>
    answered (fun p _ => [(.plan p, .query query)]) (Engine.prepare query types e)
  | .executePlan plan arguments markers =>
    answered (produced (e.response (e.plans[plan.index]?.getD "")))
      (Engine.executePlan plan arguments markers e)
  | .execute query readOnly => answered (produced (e.response query)) (Engine.execute query readOnly e)
  | .encode type v =>
    match Engine.encode type v e with
    | .ok d e => ([(.datum d, .value v)], e)
    | .error _ e => ([], e)
  | .release h => ([], e.release h)
  | .commit => answered (fun _ _ => []) (Engine.commit e)
  | .rollback => answered (fun _ _ => []) (Engine.rollback e)

/-- The engine after some operations. -/
def after (e : Engine) : List Operation → Engine
  | [] => e
  | operation :: rest => after (e.perform operation).2 rest

/-- The receipts of some operations, in order. -/
def issued (e : Engine) : List Operation → List Receipt
  | [] => []
  | operation :: rest => (e.perform operation).1 ++ issued (e.perform operation).2 rest

/-! ## What handles stand for -/

variable {e e' e'' : Engine} {handle : Handle} {m m' : Meaning} {receipts receipts' : List Receipt}

theorem Denotes.mono (h : Keeps e e') (hrecords : e.records.size ≤ e'.records.size)
    (hm : e.Denotes handle m) : e'.Denotes handle m := by
  cases handle <;> cases m
  case plan.query => exact h.plans _ _ hm
  case table.table => exact Shows.mono h hm
  case datum.value => exact h.value? hm
  case record.failure => exact Nat.lt_of_lt_of_le hm hrecords
  all_goals exact hm.elim

theorem CellShows.unique {cell : Option Datum} {v v' : Value} (h : e.CellShows cell v)
    (h' : e.CellShows cell v') : v = v' := by
  cases cell with
  | none => exact h.trans h'.symm
  | some d => exact Option.some.inj (h.2.symm.trans h'.2)

theorem Shows.unique {t : TableHandle} {columns columns' : List Column} {rows rows' : List (List Value)}
    (h : e.Shows t columns rows) (h' : e.Shows t columns' rows') : columns = columns' ∧ rows = rows' := by
  obtain ⟨cells, htable, hrows⟩ := h
  obtain ⟨cells', htable', hrows'⟩ := h'
  cases htable.symm.trans htable'
  have hcell : Relator.RightUnique e.CellShows := fun _ _ _ => CellShows.unique
  have hrow : Relator.RightUnique e.RowShows := fun _ _ _ => List.right_unique_forall₂' hcell
  exact ⟨rfl, List.right_unique_forall₂' hrow hrows hrows'⟩

/-- A handle stands for one thing. -/
theorem Denotes.unique (h : e.Denotes handle m) (h' : e.Denotes handle m') : m = m' := by
  cases handle <;> cases m <;> try exact h.elim
  all_goals cases m' <;> try exact h'.elim
  case plan.query.query => exact congrArg Meaning.query (Option.some.inj (h.symm.trans h'))
  case table.table.table =>
    obtain ⟨rfl, rfl⟩ := Shows.unique h h'
    rfl
  case datum.value.value => exact congrArg Meaning.value (Option.some.inj (h.symm.trans h'))
  case record.failure.failure => rfl

/-! ## Handles that are handed out -/

/-- From one engine to the next these handles have been handed out.  They stand for what they were handed
out for, all handles before them go on to stand for what they stood for, and they are different from those
and from each other. -/
structure Issues (e : Engine) (receipts : List Receipt) (e' : Engine) : Prop where
  keeps : ∀ {handle m}, e.Denotes handle m → e'.Denotes handle m
  stand : ∀ r ∈ receipts, e'.Denotes r.1 r.2
  new : ∀ r ∈ receipts, ∀ m, ¬ e.Denotes r.1 m
  distinct : (receipts.map Prod.fst).Nodup

theorem issues_same (hplans : e'.plans = e.plans) (htables : e'.tables = e.tables)
    (hvalues : e'.values = e.values) (hrecords : e'.records.size = e.records.size) :
    Issues e [] e' where
  keeps := by
    refine Denotes.mono ⟨?_, ?_, ?_⟩ (Nat.le_of_eq hrecords.symm)
    · rw [hplans]
      exact .refl _
    · rw [htables]
      exact .refl _
    · rw [hvalues]
      exact .refl _
  stand _ hr := absurd hr List.not_mem_nil
  new _ hr := absurd hr List.not_mem_nil
  distinct := List.nodup_nil

theorem Issues.trans (h : Issues e receipts e') (h' : Issues e' receipts' e'') :
    Issues e (receipts ++ receipts') e'' where
  keeps hm := h'.keeps (h.keeps hm)
  stand := List.forall_mem_append.mpr ⟨fun r hr => h'.keeps (h.stand r hr), h'.stand⟩
  new := List.forall_mem_append.mpr ⟨h.new, fun r hr m hm => h'.new r hr m (h.keeps hm)⟩
  distinct := by
    rw [List.map_append]
    refine List.nodup_append.mpr ⟨h.distinct, h'.distinct, ?_⟩
    -- What was handed out first already stands for something when the rest is handed out.
    intro handle hfirst handle' hrest heq
    obtain ⟨r, hr, rfl⟩ := List.mem_map.mp hfirst
    obtain ⟨r', hr', rfl⟩ := List.mem_map.mp hrest
    refine h'.new r' hr' r.2 ?_
    rw [← heq]
    exact h.stand r hr

/-! ## Numbers that are not taken -/

/-- A handle that is still to be handed out. -/
def Fresh (e : Engine) : Handle → Prop
  | .plan p => e.plans.size ≤ p.index
  | .table t => e.tables.size ≤ t.index
  | .datum d => e.values.size < d.index
  | .record h => e.records.size ≤ h.index

theorem Fresh.not_denotes (hfresh : e.Fresh handle) : ¬ e.Denotes handle m := by
  intro hm
  cases handle <;> cases m <;> try exact hm.elim
  case plan.query p text =>
    exact Nat.not_lt.mpr hfresh (Array.getElem?_eq_some_iff.mp hm).1
  case table.table t columns rows =>
    obtain ⟨cells, htable, -⟩ := hm
    exact Nat.not_lt.mpr hfresh (Array.getElem?_eq_some_iff.mp htable).1
  case datum.value d v =>
    obtain ⟨_ | i⟩ := d
    · exact Nat.not_lt_zero _ hfresh
    · exact Nat.not_lt.mpr hfresh (Nat.succ_lt_succ (Array.getElem?_eq_some_iff.mp hm).1)
  case record.failure h => exact Nat.not_lt.mpr hfresh hm

/-- A call that hands out one handle. -/
theorem issues_one (h : Keeps e e') (hrecords : e.records.size ≤ e'.records.size)
    (hfresh : e.Fresh handle) (hm : e'.Denotes handle m) : Issues e [(handle, m)] e' where
  keeps := Denotes.mono h hrecords
  stand := List.forall_mem_singleton.mpr hm
  new := List.forall_mem_singleton.mpr fun _ => hfresh.not_denotes
  distinct := List.nodup_singleton _

theorem exists_value {d : Datum} (h : d.index ≤ e.values.size) : ∃ v, e.value? d = some v := by
  obtain ⟨_ | i⟩ := d
  · exact ⟨.null, rfl⟩
  · exact ⟨e.values[i], Array.getElem?_eq_getElem h⟩

/-! ## The datums of a table -/

/-- The cells of a row are numbered on from the values that there are. -/
theorem datums_storeRow (row : List Value) (values : Array Value) :
    ∃ n, (storeRow row values).1.reduceOption =
        (List.range' (values.size + 1) n).map Datum.mk ∧
      (storeRow row values).2.size = values.size + n := by
  induction row generalizing values with
  | nil => exact ⟨0, rfl, rfl⟩
  | cons v rest ih =>
    unfold storeRow
    split
    · exact ih values
    · obtain ⟨n, hdatums, hsize⟩ := ih (values.push v)
      rw [Array.size_push] at hdatums hsize
      refine ⟨n + 1, ?_, ?_⟩
      · rw [List.range'_succ, List.map_cons, ← hdatums]
        rfl
      · show (storeRow rest (values.push v)).2.size = _
        omega

theorem datums_storeRows (rows : List (List Value)) (values : Array Value) :
    ∃ n, (storeRows rows values).1.flatten.reduceOption =
        (List.range' (values.size + 1) n).map Datum.mk ∧
      (storeRows rows values).2.size = values.size + n := by
  induction rows generalizing values with
  | nil => exact ⟨0, rfl, rfl⟩
  | cons row rest ih =>
    obtain ⟨n, hrow, hsize⟩ := datums_storeRow row values
    obtain ⟨k, hrest, hsize'⟩ := ih (storeRow row values).2
    refine ⟨n + k, ?_, ?_⟩
    · show ((storeRow row values).1 ++ (storeRows rest (storeRow row values).2).1.flatten).reduceOption
        = _
      rw [hsize] at hrest
      rw [List.reduceOption_append, hrow, hrest, ← List.map_append, Nat.add_right_comm,
        List.range'_append_1]
    · show (storeRows rest (storeRow row values).2).2.size = _
      omega

/-- A table is handed out with the datums in its cells. -/
theorem issues_table (columns : List Column) (rows : List (List Value)) (processed : Nat) :
    let next := { e with
      values := (storeRows rows e.values).2
      rowCount := processed
      tables := e.tables.push ⟨columns, (storeRows rows e.values).1⟩ }
    Issues e (produced (.rows columns rows) (some ⟨e.tables.size⟩) next) next := by
  intro next
  obtain ⟨n, hdatums, hsize⟩ := datums_storeRows rows e.values
  have htable : next.tables[e.tables.size]? = some ⟨columns, (storeRows rows e.values).1⟩ :=
    Array.getElem?_push_size
  have hcells : next.cellDatums ⟨e.tables.size⟩ =
      (List.range' (e.values.size + 1) n).map Datum.mk := by
    rw [← hdatums]
    simp only [cellDatums, htable]
  have hshows : next.Shows ⟨e.tables.size⟩ columns rows :=
    ⟨_, htable, rowShows_storeRows (.refl _)⟩
  have hkeeps : Keeps e next :=
    ⟨.refl _, Arena.within_push _ _, storeRows_within rows e.values⟩
  show Issues e ((.table ⟨e.tables.size⟩, .table columns rows) ::
    (next.cellDatums ⟨e.tables.size⟩).map _) next
  rw [hcells]
  refine ⟨Denotes.mono hkeeps (Nat.le_refl _), ?_, ?_, ?_⟩
  · refine List.forall_mem_cons.mpr ⟨hshows, ?_⟩
    simp only [List.forall_mem_map, List.mem_range'_1]
    intro i hi
    have hlive : i ≤ next.values.size := by
      show i ≤ (storeRows rows e.values).2.size
      omega
    obtain ⟨v, hv⟩ := exists_value (e := next) (d := ⟨i⟩) hlive
    show next.value? ⟨i⟩ = some ((next.value? ⟨i⟩).getD .null)
    rw [hv, Option.getD_some]
  · -- The cells are numbered from behind the values that there were, so none of their numbers is taken.
    refine List.forall_mem_cons.mpr ⟨fun _ => Fresh.not_denotes (Nat.le_refl _), ?_⟩
    simp only [List.forall_mem_map, List.mem_range'_1]
    intro i hi m
    exact Fresh.not_denotes (Nat.lt_of_succ_le hi.1)
  · simp only [List.map_cons, List.map_map, List.nodup_cons]
    refine ⟨by simp, List.Nodup.map ?_ List.nodup_range'⟩
    intro i j hij
    cases hij
    rfl

/-! ## Operations and handles -/

theorem issues_raise {α : Type} (h : Issues e [] e') (issued : α → Engine → List Receipt)
    (r : ErrorRecord) : (Issues e).uncurry (answered issued (raise r e')) := by
  refine h.trans (issues_one ⟨.refl _, .refl _, .refl _⟩ ?_ (Nat.le_refl _) ?_)
  · show e'.records.size ≤ (e'.records.push (some r)).size
    rw [Array.size_push]
    exact Nat.le_succ _
  · show e'.records.size < (e'.records.push (some r)).size
    rw [Array.size_push]
    exact Nat.lt_succ_self _

theorem issues_log (e : Engine) (call : Call) : Issues e [] (e.log call) :=
  issues_same rfl rfl rfl rfl

theorem issues_run (query : String) :
    (Issues e).uncurry (answered (produced (e.response query)) (run query e)) := by
  unfold run
  split
  · next columns rows hr =>
    rw [hr]
    exact issues_table columns rows rows.length
  · exact issues_same rfl rfl rfl rfl
  · exact issues_raise (issues_same rfl rfl rfl rfl) _ _

theorem issues_prepare (query : String) (types : List Oid) :
    (Issues e).uncurry (e.perform (.prepare query types)) := by
  have hplan : Issues e [(.plan ⟨e.plans.size⟩, .query query)]
      { e.log (.prepare query types) with plans := e.plans.push query } :=
    issues_one ⟨Arena.within_push _ _, .refl _, .refl _⟩ (Nat.le_refl _) (Nat.le_refl _)
      Array.getElem?_push_size
  unfold perform prepare
  dsimp only
  split
  · split
    · exact issues_raise (issues_log e _) _ _
    · exact hplan
  · exact hplan

theorem issues_encode (type : Oid) (v : Value) :
    (Issues e).uncurry (e.perform (.encode type v)) := by
  by_cases hfits : fits type v = true
  · simp only [perform, encode, hfits, if_true]
    exact issues_one ⟨.refl _, .refl _, Arena.within_push _ _⟩ (Nat.le_refl _)
      (Nat.lt_succ_self _) Array.getElem?_push_size
  · simp only [perform, encode, hfits, if_false, Bool.false_eq_true]
    exact issues_same rfl rfl rfl rfl

theorem issues_configure (setting : Setting) : Issues e [] (e.configure setting) := by
  cases setting <;> exact issues_same rfl rfl rfl rfl

theorem perform_issues (e : Engine) (operation : Operation) :
    (Issues e).uncurry (e.perform operation) := by
  cases operation with
  | configure setting => exact issues_configure setting
  | prepare query types => exact issues_prepare query types
  | executePlan plan arguments markers => exact (issues_log e _).trans (issues_run _)
  | execute query readOnly => exact (issues_log e _).trans (issues_run query)
  | encode type v => exact issues_encode type v
  | release h => exact issues_same rfl rfl rfl Array.size_setIfInBounds
  | commit =>
    unfold perform commit
    dsimp only
    split
    · refine issues_raise ?_ _ _
      exact issues_same rfl rfl rfl rfl
    · exact issues_log e _
  | rollback =>
    unfold perform rollback
    dsimp only
    split
    · refine issues_raise ?_ _ _
      exact issues_same rfl rfl rfl rfl
    · exact issues_log e _

/-- Any run of operations hands out handles of their own. -/
theorem issues_after (e : Engine) (operations : List Operation) :
    Issues e (e.issued operations) (e.after operations) := by
  induction operations generalizing e with
  | nil => exact issues_same rfl rfl rfl rfl
  | cons operation rest ih => exact (perform_issues e operation).trans (ih _)

end Engine
end SqlSession
