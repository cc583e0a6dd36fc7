import SqlSession.Cursor.Basic
import SqlSession.Engine.Catalog
import SqlSession.Proofs.Cursor.Walk
import SqlSession.Proofs.Engine.Answer

/-!
# What a cursor reads

A result of a cursor is an outcome, and what can be read of it are fields, row buffers and datums.
The lemmas here say that all of this shows the plain table that the engine was scripted with, as
long as that table is rectangular and nothing is made to fail.
-/

namespace SqlSession

/-! ## Tables without ragged rows -/

def Response.Rectangular : Response → Prop
  | .rows columns body => ∀ row ∈ body, row.length = columns.length
  | .command _ => True
  | .failure _ => True

namespace Engine

def Rectangular (e : Engine) : Prop :=
  ∀ query r, e.scripted? query = some r → r.Rectangular

/-- Nothing that a cursor reads is made to fail or to differ from what the engine has.  The engine
itself can only be told to fail at a row.  The other three faults stand for an engine that breaks
its own rules. -/
structure Undisturbed (e : Engine) : Prop where
  fetch : e.faults.fetch = none
  decode : e.faults.decode = none
  rowCount : e.faults.rowCount = none
  described : e.faults.described = none

theorem response_of_unscripted {e : Engine} {query : String} (h : e.scripted? query = none) :
    (∃ processed, e.response query = .command processed) ∨
      ∃ record, e.response query = .failure record := by
  unfold Engine.response
  simp only [h]
  by_cases hutility : isUtility (Text.trim query)
  · exact .inl ⟨0, if_pos hutility⟩
  · exact .inr ⟨_, if_neg hutility⟩

theorem Rectangular.response {e : Engine} (h : e.Rectangular) (query : String) :
    (e.response query).Rectangular := by
  cases hscripted : e.scripted? query with
  | some r =>
    have hresponse : e.response query = r := by
      unfold Engine.response
      rw [hscripted]
    rw [hresponse]
    exact h query r hscripted
  | none =>
    rcases response_of_unscripted hscripted with ⟨processed, hresponse⟩ | ⟨record, hresponse⟩
    · rw [hresponse]
      exact True.intro
    · rw [hresponse]
      exact True.intro

theorem Rectangular.answerWith {e : Engine} {r : Response} (h : e.Rectangular) (query : String)
    (hr : r.Rectangular) : (e.answerWith query r).Rectangular := by
  intro query' r' hlookup
  unfold scripted? Engine.answerWith at hlookup
  rw [List.lookup_cons] at hlookup
  split at hlookup
  · cases hlookup
    exact hr
  · exact h query' r' hlookup

theorem rectangular_initial : initial.Rectangular := by
  have hcatalog : (Response.rows Catalog.columns Catalog.builtInRows).Rectangular := by
    intro row hrow
    obtain ⟨entry, -, rfl⟩ := List.mem_map.mp hrow
    rfl
  unfold initial withCatalog
  refine Rectangular.answerWith (Rectangular.answerWith ?_ _ ?_) _ hcatalog
  · intro query r hlookup
    cases hlookup
  · intro row hrow
    rw [List.mem_singleton.mp hrow]
    rfl

theorem Undisturbed.of_alike {e e' : Engine} (h : Alike e e') (he : e.Undisturbed) :
    e'.Undisturbed := by
  obtain ⟨hfetch, hdecode, hcount, hdescribed⟩ := he
  rw [← h.faults] at hfetch hdecode hcount hdescribed
  exact ⟨hfetch, hdecode, hcount, hdescribed⟩

/-- The outcome of a statement shows a plain table. -/
def Presents (e : Engine) (schemaOnly : Bool) (sheet : Sheet) (o : Outcome) : Prop :=
  ∃ r, e.Answered r o ∧ r.Rectangular ∧ sheet = Sheet.ofResponse schemaOnly r

theorem Presents.rectangular {e : Engine} {schemaOnly : Bool} {sheet : Sheet} {o : Outcome}
    (h : e.Presents schemaOnly sheet o) : ∀ row ∈ sheet.rows, row.length = sheet.columns.length := by
  obtain ⟨r, hanswer, hr, rfl⟩ := h
  cases hanswer with
  | table hshows =>
    intro row hrow
    cases schemaOnly with
    | true => cases hrow
    | false => exact hr row hrow
  | command processed =>
    intro row hrow
    cases hrow

end Engine

/-! ## Columns -/

namespace Field

def ofColumns (columns : List Column) : List Field :=
  columns.mapIdx fun i c => ⟨c.name, Oid.record, i, c.type, c.size, c.modifier⟩

theorem length_ofColumns (columns : List Column) : (ofColumns columns).length = columns.length :=
  List.length_mapIdx

theorem getElem?_ofColumns (columns : List Column) (i : Nat) :
    (ofColumns columns)[i]? =
      columns[i]?.map fun c => ⟨c.name, Oid.record, i, c.type, c.size, c.modifier⟩ :=
  List.getElem?_mapIdx

theorem ofTable_eq {e : Engine} (h : e.faults.described = none) (t : TableHandle) :
    ofTable e t = ofColumns (e.columns t) := by
  refine List.ext_getElem? fun i => ?_
  have hdescribed : e.describedColumns t = e.columns t := by
    simp only [Engine.describedColumns, h]
  rw [getElem?_ofColumns, ofTable, hdescribed, Engine.columnCount, List.getElem?_map]
  by_cases hi : i < (e.columns t).length
  · rw [List.getElem?_range hi, Option.map_some, List.getElem?_eq_getElem hi, Option.map_some,
      Option.getD_some]
    rfl
  · rw [List.getElem?_eq_none (by simpa using hi), List.getElem?_eq_none (by simpa using hi)]
    rfl

end Field

/-! ## Row buffers -/

namespace RowBuffer

structure Sized (b : RowBuffer) (n : Nat) : Prop where
  datums : b.datums.length = n
  nulls : b.nulls.length = n

def ofCells (cells : List (Option Datum)) : RowBuffer :=
  ⟨cells.map (·.getD Datum.null), cells.map Option.isNone⟩

theorem sized_blank (n : Nat) : (blank n).Sized n :=
  ⟨List.length_replicate, List.length_replicate⟩

theorem sized_ofCells (cells : List (Option Datum)) : (ofCells cells).Sized cells.length :=
  ⟨List.length_map _, List.length_map _⟩

/-- As many cells as there is room for leave nothing of what was there before. -/
theorem overwrite_eq_ofCells {cells : List (Option Datum)} {b : RowBuffer}
    (h : b.Sized cells.length) : overwrite cells b = ofCells cells := by
  induction cells generalizing b with
  | nil =>
    obtain ⟨datums, nulls⟩ := b
    have hd : datums = [] := List.length_eq_zero_iff.mp h.datums
    have hn : nulls = [] := List.length_eq_zero_iff.mp h.nulls
    subst hd hn
    rfl
  | cons cell cells ih =>
    obtain ⟨_ | ⟨d, datums⟩, _ | ⟨n, nulls⟩⟩ := b
    · exact absurd h.datums (by simp)
    · exact absurd h.datums (by simp)
    · exact absurd h.nulls (by simp)
    · have hrest := ih (b := ⟨datums, nulls⟩) ⟨by simpa using h.datums, by simpa using h.nulls⟩
      simp only [overwrite, hrest]
      rfl

theorem cell?_ofCells (cells : List (Option Datum)) (i : Nat) :
    (ofCells cells).cell? i = cells[i]?.map fun cell => (cell.getD Datum.null, cell.isNone) := by
  simp only [cell?, ofCells, List.getElem?_map]
  cases cells[i]? <;> rfl

/-- The buffers hold cells that stand for the values of a row. -/
def Holds (e : Engine) (b : RowBuffer) (row : List Value) : Prop :=
  ∃ cells, e.RowShows cells row ∧ b = ofCells cells

variable {e : Engine} {b : RowBuffer} {row : List Value}

theorem Holds.sized (h : Holds e b row) : b.Sized row.length := by
  obtain ⟨cells, hcells, rfl⟩ := h
  rw [← hcells.length_eq]
  exact sized_ofCells cells

/-- A column of the buffers either is flagged as null or has a datum for the value in that
column. -/
theorem Holds.cell? (h : Holds e b row) {i : Nat} {v : Value} (hv : row[i]? = some v) :
    b.nulls[i]? = some v.isNull ∧
      ∃ d, b.cell? i = some (d, v.isNull) ∧ (v.isNull = false → e.value? d = some v) := by
  obtain ⟨cells, hcells, rfl⟩ := h
  obtain ⟨hi, rfl⟩ := List.getElem?_eq_some_iff.mp hv
  have hi' : i < cells.length := hcells.length_eq ▸ hi
  have hcell : e.CellShows cells[i] row[i] := hcells.get hi' hi
  rw [cell?_ofCells, List.getElem?_eq_getElem hi', Option.map_some]
  have hnulls : (ofCells cells).nulls[i]? = some cells[i].isNone := by
    simp only [ofCells, List.getElem?_map, List.getElem?_eq_getElem hi', Option.map_some]
  rw [hnulls]
  generalize cells[i] = cell at hcell
  cases cell with
  | none =>
    have hnull : row[i].isNull = true := Value.isNull_iff.mpr hcell
    exact ⟨by rw [hnull]; rfl, Datum.null, by rw [hnull]; rfl, by simp [hnull]⟩
  | some d =>
    obtain ⟨hnull, hd⟩ := hcell
    exact ⟨by rw [hnull]; rfl, d, by rw [hnull]; rfl, fun _ => hd⟩

end RowBuffer
end SqlSession
