import SqlSession.Proofs.Engine.Answer

/-!
# Reading from engines that answer alike

Two engines with the same script and the same faults keep what they have answered under handles of
their own.  What is read through handles that stand for the same is the same: the columns of a table,
its rows, and the values in the buffers.
-/

namespace SqlSession

variable {e e' : Engine}

/-- Datums with the same value, each on its own engine. -/
def Datum.Agree (e e' : Engine) (d d' : Datum) : Prop :=
  ∃ v, e.value? d = some v ∧ e'.value? d' = some v

namespace RowBuffer

/-- Buffers with the same values and the same flags. -/
structure Agree (e e' : Engine) (b b' : RowBuffer) : Prop where
  datums : List.Forall₂ (Datum.Agree e e') b.datums b'.datums
  nulls : b.nulls = b'.nulls

theorem agree_blank (count : Nat) : Agree e e' (blank count) (blank count) where
  datums := by
    rw [List.forall₂_same]
    intro d hd
    rw [List.eq_of_mem_replicate hd]
    exact ⟨.null, e.value?_null, e'.value?_null⟩
  nulls := rfl

variable {cells cells' : List (Option Datum)} {row : List Value} {b b' : RowBuffer}

theorem agree_of_shows {cell cell' : Option Datum} {v : Value} (h : e.CellShows cell v)
    (h' : e'.CellShows cell' v) :
    Datum.Agree e e' (cell.getD Datum.null) (cell'.getD Datum.null) ∧ cell.isNone = cell'.isNone := by
  cases cell with
  | none =>
    cases cell' with
    | none => exact ⟨⟨.null, e.value?_null, e'.value?_null⟩, rfl⟩
    | some d' =>
      rw [h] at h'
      cases h'.1
  | some d =>
    cases cell' with
    | none =>
      rw [h'] at h
      cases h.1
    | some d' => exact ⟨⟨v, h.2, h'.2⟩, rfl⟩

/-- The cells of one row are written over both buffers as far as they go. -/
theorem Agree.overwrite (hb : Agree e e' b b') (h : e.RowShows cells row)
    (h' : e'.RowShows cells' row) : Agree e e' (overwrite cells b) (overwrite cells' b') := by
  induction h generalizing cells' b b' with
  | nil =>
    cases h'
    rw [overwrite_nil, overwrite_nil]
    exact hb
  | cons hcell _ ih =>
    cases h' with
    | cons hcell' hrest' =>
      obtain ⟨datums, nulls⟩ := b
      obtain ⟨datums', nulls'⟩ := b'
      obtain ⟨hdatums, rfl⟩ := hb
      obtain ⟨hdatum, hnull⟩ := agree_of_shows hcell hcell'
      dsimp only at hdatums
      cases hdatums with
      | nil => exact ⟨.nil, rfl⟩
      | cons hd hds =>
        cases nulls with
        | nil => exact ⟨.cons hd hds, rfl⟩
        | cons n nulls =>
          have hrest : Agree e e' ⟨_, nulls⟩ ⟨_, nulls⟩ := ⟨hds, rfl⟩
          obtain ⟨hvalues, hflags⟩ := ih hrest hrest'
          exact ⟨.cons hdatum hvalues, congrArg₂ List.cons hnull hflags⟩

/-- The cells in a column have the same flag, and values that are the same. -/
theorem Agree.cell? (h : Agree e e' b b') (i : Nat) :
    (b.cell? i = none ∧ b'.cell? i = none) ∨
      ∃ d d' null, b.cell? i = some (d, null) ∧ b'.cell? i = some (d', null) ∧ Datum.Agree e e' d d' := by
  obtain ⟨hdatums, hnulls⟩ := h
  unfold RowBuffer.cell?
  rw [hnulls]
  by_cases hi : i < b.datums.length
  · have hi' : i < b'.datums.length := hdatums.length_eq ▸ hi
    rw [List.getElem?_eq_getElem hi, List.getElem?_eq_getElem hi']
    cases b'.nulls[i]? with
    | none => exact .inl ⟨rfl, rfl⟩
    | some null => exact .inr ⟨_, _, null, rfl, rfl, hdatums.get hi hi'⟩
  · have hnone : b.datums[i]? = none := List.getElem?_eq_none (by omega)
    have hnone' : b'.datums[i]? = none :=
      List.getElem?_eq_none (by have := hdatums.length_eq; omega)
    rw [hnone, hnone']
    exact .inl ⟨rfl, rfl⟩

end RowBuffer

namespace Engine

variable {t t' : TableHandle} {columns : List Column} {rows : List (List Value)}

theorem decode_of_agree (h : Alike e e') {d d' : Datum} (hd : Datum.Agree e e' d d') (type : Oid) :
    e'.decode d' type = e.decode d type := by
  obtain ⟨v, hv, hv'⟩ := hd
  unfold decode
  rw [h.faults, hv, hv']

theorem describedColumns_of_shows (h : Alike e e') (ht : e.Shows t columns rows)
    (ht' : e'.Shows t' columns rows) : e'.describedColumns t' = e.describedColumns t := by
  unfold describedColumns
  rw [h.faults, ht.columns_eq, ht'.columns_eq]

/-- A row that is there is fetched from both tables or from none. -/
theorem fetchRow_of_agree (h : Alike e e') (ht : e.Shows t columns rows)
    (ht' : e'.Shows t' columns rows) {b b' : RowBuffer} (hb : b.Agree e e' b') {index : Nat}
    (hindex : index < rows.length) :
    (∃ err, e.fetchRow index t b = .error err ∧ e'.fetchRow index t' b' = .error err) ∨
      ∃ b₁ b₁', e.fetchRow index t b = .ok b₁ ∧ e'.fetchRow index t' b' = .ok b₁' ∧
        b₁.Agree e e' b₁' := by
  unfold fetchRow
  rw [h.faults]
  by_cases hfault : e.faults.fetch = some index
  · rw [if_pos hfault, if_pos hfault]
    exact .inl ⟨_, rfl, rfl⟩
  · rw [if_neg hfault, if_neg hfault]
    have hrow := List.getElem?_eq_getElem hindex
    obtain ⟨cells, hcells, hshows⟩ := ht.row hrow
    obtain ⟨cells', hcells', hshows'⟩ := ht'.row hrow
    rw [hcells, hcells']
    exact .inr ⟨_, _, rfl, rfl, hb.overwrite hshows hshows'⟩

end Engine

end SqlSession
