import SqlSession.Proofs.Cursor.Reading

/-!
# Moves of a cursor

What `nextResult`, `read` and the look at a column do, case by case: one equation for each way in
which they can go on.  Proofs about cursors use these and leave the definitions closed.
-/

namespace SqlSession
namespace Cursor

open Effect

variable {e : Engine} {sheets : List Sheet} {c : Cursor} {w : Walk}

/-! ## The current result -/

/-- Where the rows of a result come from.  A result without rows to show has no source. -/
theorem source?_eq {sheet : Sheet} {o : Outcome} (ho : c.outcome? = some o)
    (h : e.Presents c.behavior.schemaOnly sheet o) :
    (c.source? = none ∧ sheet.rows = []) ∨
      ∃ t, c.source? = some (t, sheet.rows.length) ∧ e.Shows t sheet.columns sheet.rows := by
  obtain ⟨r, hanswer, -, rfl⟩ := h
  unfold source?
  rw [ho]
  cases hanswer with
  | table hshows =>
    cases hschema : c.behavior.schemaOnly with
    | true => exact .inl ⟨rfl, rfl⟩
    | false => exact .inr ⟨_, rfl, hshows⟩
  | command processed =>
    cases c.behavior.schemaOnly <;> exact .inl ⟨rfl, rfl⟩

theorem rowCount_eq {sheet : Sheet} {o : Outcome} (ho : c.outcome? = some o)
    (h : e.Presents c.behavior.schemaOnly sheet o) : c.rowCount = sheet.rows.length := by
  unfold rowCount
  rcases source?_eq ho h with ⟨hsource, hrows⟩ | ⟨t, hsource, -⟩
  · rw [hsource, hrows]
    rfl
  · rw [hsource]

theorem fields_eq {schemaOnly : Bool} {sheet : Sheet} {o : Outcome} (he : e.Undisturbed)
    (h : e.Presents schemaOnly sheet o) :
    (match o.table with
      | some t => Field.ofTable e t
      | none => []) = Field.ofColumns sheet.columns := by
  obtain ⟨r, hanswer, -, rfl⟩ := h
  cases hanswer with
  | table hshows =>
    show Field.ofTable e _ = _
    rw [Field.ofTable_eq he.described, hshows.columns_eq]
    rfl
  | command processed => rfl

theorem fetch_eq_ok (he : e.Undisturbed) {t : TableHandle} {columns : List Column}
    {rows : List (List Value)} (ht : e.Shows t columns rows) {i : Nat} {row : List Value}
    (hrow : rows[i]? = some row) (hsized : c.buffer.Sized row.length) :
    ∃ b, fetch e t i c = .ok () { c with buffer := b } ∧ b.Holds e row := by
  obtain ⟨cells, hcells, hshows⟩ := ht.row hrow
  rw [← hshows.length_eq] at hsized
  refine ⟨RowBuffer.ofCells cells, ?_, cells, hshows, rfl⟩
  have hnofault : ¬ e.faults.fetch = some i := by rw [he.fetch]; exact nofun
  simp only [fetch, Engine.fetchRow, hnofault, if_false, hcells]
  rw [RowBuffer.overwrite_eq_ofCells hsized]

/-! ## Moving on -/

def nextPosition (c : Cursor) : Nat :=
  match c.position with
  | some i => i + 1
  | none => 0

/-- The stages from which there is a way on. -/
def Live (c : Cursor) : Prop :=
  c.stage = .betweenResults ∨ c.stage = .beforeResult ∨ c.stage = .inResult

theorem nextResult_of_none (hlive : c.Live) (h : c.outcomes[c.nextPosition]? = none) :
    nextResult e c = .ok false c.exhaust := by
  unfold nextPosition at h
  cases hp : c.position <;> simp only [hp] at h <;> rcases hlive with hs | hs | hs
  all_goals
    simp only [nextResult, bind_apply, get_apply, hs, hp, h, set_apply, pure_apply]

theorem nextResult_of_rows (hlive : c.Live) {o : Outcome} {t : TableHandle} {n : Nat} {c' : Cursor}
    (h : c.outcomes[c.nextPosition]? = some o)
    (hsource : (c.enter e c.nextPosition o).source? = some (t, n + 1))
    (hfetch : fetch e t 0 (c.enter e c.nextPosition o) = .ok () c') :
    nextResult e c = .ok true { c' with nextRow := 1, pending := true } := by
  unfold nextPosition at h hsource hfetch
  cases hp : c.position <;> simp only [hp] at h hsource hfetch <;> rcases hlive with hs | hs | hs
  all_goals
    simp only [nextResult, bind_apply, get_apply, hs, hp, h, set_apply, hsource, hfetch,
      modify_apply, pure_apply]

theorem nextResult_of_failed (hlive : c.Live) {o : Outcome} {t : TableHandle} {n : Nat}
    {err : Error} {c' : Cursor} (h : c.outcomes[c.nextPosition]? = some o)
    (hsource : (c.enter e c.nextPosition o).source? = some (t, n + 1))
    (hfetch : fetch e t 0 (c.enter e c.nextPosition o) = .error err c') :
    nextResult e c = .error err c' := by
  unfold nextPosition at h hsource hfetch
  cases hp : c.position <;> simp only [hp] at h hsource hfetch <;> rcases hlive with hs | hs | hs
  all_goals
    simp only [nextResult, bind_apply, get_apply, hs, hp, h, set_apply, hsource, hfetch]

theorem nextResult_of_empty (hlive : c.Live) {o : Outcome}
    (h : c.outcomes[c.nextPosition]? = some o)
    (hrows : (c.enter e c.nextPosition o).rowCount = 0) :
    nextResult e c = .ok true (c.enter e c.nextPosition o) := by
  unfold nextPosition rowCount at *
  cases hp : c.position <;> simp only [hp] at h hrows ⊢ <;> rcases hlive with hs | hs | hs
  all_goals
    simp only [nextResult, bind_apply, get_apply, hs, hp, h, set_apply]
    split at hrows
    · next hsource =>
      subst hrows
      simp only [hsource, pure_apply]
    · next hsource => simp only [hsource, pure_apply]

theorem nextResult_of_stuck (h : ¬ c.Live) : nextResult e c = .ok false c := by
  unfold Live at h
  unfold nextResult
  rw [bind_apply, get_apply]
  cases hs : c.stage <;> simp_all [pure_apply]

theorem read_of_stuck (h : c.stage ≠ .beforeResult ∧ c.stage ≠ .inResult) :
    read e c = .ok false c := by
  unfold read
  rw [bind_apply, get_apply]
  cases hs : c.stage <;> simp_all [pure_apply]

theorem read_of_beforeResult (hs : c.stage = .beforeResult) :
    read e c =
      .ok c.pending { c with stage := .inResult, onRow := c.pending, pending := false } := by
  simp only [read, bind_apply, get_apply, hs, set_apply, pure_apply]

theorem read_of_row (hs : c.stage = .inResult) {t : TableHandle} {count : Nat} {c' : Cursor}
    (hsource : c.source? = some (t, count)) (hrow : c.nextRow < count)
    (hfetch : fetch e t c.nextRow c = .ok () c') :
    read e c = .ok true { c' with nextRow := c'.nextRow + 1, onRow := true } := by
  simp only [read, bind_apply, get_apply, hs, hsource, hrow, if_true, hfetch]
  rw [modify_apply]
  rfl

theorem read_of_failed (hs : c.stage = .inResult) {t : TableHandle} {count : Nat} {err : Error}
    {c' : Cursor} (hsource : c.source? = some (t, count)) (hrow : c.nextRow < count)
    (hfetch : fetch e t c.nextRow c = .error err c') : read e c = .error err c' := by
  simp only [read, bind_apply, get_apply, hs, hsource, hrow, if_true, hfetch]

theorem read_of_end (hs : c.stage = .inResult) (hend : c.rowCount ≤ c.nextRow) :
    read e c = .ok false { c with onRow := false } := by
  unfold rowCount at hend
  split at hend
  · next hsource =>
    have hnot := Nat.not_lt.mpr hend
    simp only [read, bind_apply, get_apply, hs, hsource, hnot, if_false, set_apply, pure_apply]
  · next hsource => simp only [read, bind_apply, get_apply, hs, hsource, set_apply, pure_apply]

/-! ## Columns of the current row -/

theorem field_eq (hopen : c.isClosed = false) (i : Nat) :
    c.field i = match c.fields[i]? with
      | some f => .ok f
      | none => .error (.range (.ordinal i c.fields.length)) := by
  simp only [field, checkOpen, hopen]
  cases c.fields[i]? <;> rfl

theorem rowField_eq (hopen : c.isClosed = false) (i : Nat) :
    c.rowField i = if c.onRow then c.field i else .error (.state .noRow) := by
  simp only [rowField, checkOpen, hopen]
  cases c.onRow <;> rfl

theorem isNull_of_error {err : Error} {i : Nat} (h : c.rowField i = .error err) :
    c.isNull i = .error err := by
  simp only [isNull, h]
  rfl

theorem value_of_error {err : Error} {i : Nat} (h : c.rowField i = .error err) :
    c.value e i = .error err := by
  simp only [value, h]
  rfl

theorem isNull_of_row {row : List Value} {f : Field} {v : Value} {i : Nat}
    (h : c.rowField i = .ok f) (hrow : c.buffer.Holds e row) (hv : row[i]? = some v) :
    c.isNull i = .ok v.isNull := by
  simp only [isNull, h, (hrow.cell? hv).1]
  rfl

theorem value_of_row (he : e.Undisturbed) {row : List Value} {f : Field} {v : Value} {i : Nat}
    (h : c.rowField i = .ok f) (hrow : c.buffer.Holds e row) (hv : row[i]? = some v) :
    c.value e i = .ok v := by
  obtain ⟨-, d, hcell, hd⟩ := hrow.cell? hv
  have hdecode : ¬ e.faults.decode = some f.type := by rw [he.decode]; exact nofun
  simp only [value, h, hcell, bind, Except.bind]
  cases hnull : v.isNull with
  | true => rw [Value.isNull_iff.mp hnull]; rfl
  | false => simp only [Engine.decode, hdecode, if_false, hd hnull]

end Cursor
end SqlSession
