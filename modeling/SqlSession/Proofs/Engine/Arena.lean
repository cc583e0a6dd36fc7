import Mathlib.Data.List.Forall2
import SqlSession.Engine.Tuples

/-!
# What an engine has handed out

An engine only ever adds to what it keeps, so whatever a handle stood for it stands for later too.
`Engine.Keeps` says so of two engines, and `Engine.Shows` says which plain table a handle stands
for.
-/

namespace SqlSession

/-! ## Stores that grow -/

namespace Arena

variable {α : Type}

/-- Whatever stands in the older store stands at the same place in the newer one. -/
def Within (older newer : Array α) : Prop :=
  ∀ (i : Nat) (x : α), older[i]? = some x → newer[i]? = some x

theorem Within.refl (xs : Array α) : Within xs xs := fun _ _ h => h

theorem Within.trans {xs ys zs : Array α} (h : Within xs ys) (h' : Within ys zs) : Within xs zs :=
  fun i x hx => h' i x (h i x hx)

theorem within_push (xs : Array α) (x : α) : Within xs (xs.push x) := by
  intro i y hy
  have hi : i < xs.size := (Array.getElem?_eq_some_iff.mp hy).1
  rw [Array.getElem?_push, if_neg (Nat.ne_of_lt hi)]
  exact hy

end Arena

namespace Engine

/-- The handles that `e` has handed out stand for the same in `e'`. -/
structure Keeps (e e' : Engine) : Prop where
  plans : Arena.Within e.plans e'.plans
  tables : Arena.Within e.tables e'.tables
  values : Arena.Within e.values e'.values

theorem Keeps.refl (e : Engine) : Keeps e e := ⟨.refl _, .refl _, .refl _⟩

theorem Keeps.trans {e e' e'' : Engine} (h : Keeps e e') (h' : Keeps e' e'') : Keeps e e'' :=
  ⟨h.plans.trans h'.plans, h.tables.trans h'.tables, h.values.trans h'.values⟩

theorem Keeps.value? {e e' : Engine} (h : Keeps e e') {d : Datum} {v : Value}
    (hv : e.value? d = some v) : e'.value? d = some v := by
  unfold Engine.value? at hv ⊢
  split at hv
  · exact hv
  · exact h.values _ _ hv

/-! ## Cells, rows and tables -/

/-- A cell of a table stands for a value: an empty one for the null, any other for the value of its
datum, which is no null. -/
def CellShows (e : Engine) : Option Datum → Value → Prop
  | none, v => v = .null
  | some d, v => v.isNull = false ∧ e.value? d = some v

abbrev RowShows (e : Engine) : List (Option Datum) → List Value → Prop :=
  List.Forall₂ e.CellShows

/-- A handle stands for a table with these columns and these rows. -/
def Shows (e : Engine) (t : TableHandle) (columns : List Column) (rows : List (List Value)) : Prop :=
  ∃ cells, e.tables[t.index]? = some ⟨columns, cells⟩ ∧ List.Forall₂ e.RowShows cells rows

theorem CellShows.mono {e e' : Engine} (h : Keeps e e') {cell : Option Datum} {v : Value}
    (hc : e.CellShows cell v) : e'.CellShows cell v := by
  cases cell with
  | none => exact hc
  | some d => exact ⟨hc.1, h.value? hc.2⟩

theorem RowShows.mono {e e' : Engine} (h : Keeps e e') {cells : List (Option Datum)}
    {row : List Value} (hr : e.RowShows cells row) : e'.RowShows cells row :=
  hr.imp fun _ _ hc => hc.mono h

theorem Shows.mono {e e' : Engine} (h : Keeps e e') {t : TableHandle} {columns : List Column}
    {rows : List (List Value)} (ht : e.Shows t columns rows) : e'.Shows t columns rows := by
  obtain ⟨cells, htable, hrows⟩ := ht
  exact ⟨cells, h.tables _ _ htable, hrows.imp fun _ _ hr => RowShows.mono h hr⟩

theorem Shows.columns_eq {e : Engine} {t : TableHandle} {columns : List Column}
    {rows : List (List Value)} (h : e.Shows t columns rows) : e.columns t = columns := by
  obtain ⟨cells, htable, -⟩ := h
  simp only [Engine.columns, htable]

theorem Shows.row {e : Engine} {t : TableHandle} {columns : List Column} {rows : List (List Value)}
    (h : e.Shows t columns rows) {i : Nat} {row : List Value} (hrow : rows[i]? = some row) :
    ∃ cells, e.tables[t.index]?.bind (·.rows[i]?) = some cells ∧ e.RowShows cells row := by
  obtain ⟨all, htable, hall⟩ := h
  obtain ⟨hi, rfl⟩ := List.getElem?_eq_some_iff.mp hrow
  have hi' : i < all.length := hall.length_eq ▸ hi
  refine ⟨all[i], ?_, hall.get hi' hi⟩
  rw [htable, Option.bind_some]
  exact List.getElem?_eq_getElem hi'

/-! ## Storing rows

Rows are stored in the values of an engine before the engine has their table, so the lemmas speak
of any engine whose values hold what has been stored. -/

theorem storeRow_within (row : List Value) (values : Array Value) :
    Arena.Within values (storeRow row values).2 := by
  induction row generalizing values with
  | nil => exact .refl _
  | cons v rest ih =>
    simp only [storeRow]
    split
    · exact ih values
    · exact (Arena.within_push values v).trans (ih _)

theorem storeRows_within (rows : List (List Value)) (values : Array Value) :
    Arena.Within values (storeRows rows values).2 := by
  induction rows generalizing values with
  | nil => exact .refl _
  | cons row rest ih => exact (storeRow_within row values).trans (ih _)

variable {e : Engine}

theorem value?_store {v : Value} {values : Array Value}
    (h : Arena.Within (store v values).2 e.values) :
    e.value? (store v values).1 = some v := by
  show e.values[values.size]? = some v
  exact h _ _ (by simp [store])

theorem rowShows_storeRow {row : List Value} {values : Array Value}
    (h : Arena.Within (storeRow row values).2 e.values) :
    e.RowShows (storeRow row values).1 row := by
  induction row generalizing values with
  | nil => exact .nil
  | cons v rest ih =>
    by_cases hv : v.isNull = true
    · simp only [storeRow, hv, if_true] at h ⊢
      exact .cons (Value.isNull_iff.mp hv) (ih h)
    · simp only [storeRow, hv, if_false, Bool.false_eq_true] at h ⊢
      have hstored : Arena.Within (store v values).2 e.values := (storeRow_within rest _).trans h
      exact .cons ⟨by simpa using hv, value?_store hstored⟩ (ih h)

theorem rowShows_storeRows {rows : List (List Value)} {values : Array Value}
    (h : Arena.Within (storeRows rows values).2 e.values) :
    List.Forall₂ e.RowShows (storeRows rows values).1 rows := by
  induction rows generalizing values with
  | nil => exact .nil
  | cons row rest ih =>
    have hrow : Arena.Within (storeRow row values).2 e.values := (storeRows_within rest _).trans h
    exact .cons (rowShows_storeRow hrow) (ih h)

end Engine
end SqlSession
