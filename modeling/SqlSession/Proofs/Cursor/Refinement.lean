import SqlSession.Proofs.Cursor.Moves

/-!
# Cursors refine walks

A cursor spreads its position over a stage, a position, a row number and two flags, and it is one
row ahead of its caller.  `Tracks` ties all of this to a walk over plain results.  The relation holds
of a new cursor, and `Tracks.reply` says that every question gets the same answer from both and
leaves them related, so all answers are those of the walk (`Tracks.replies_eq`).
-/

namespace SqlSession
namespace Cursor

variable {e : Engine} {sheets : List Sheet} {c : Cursor} {w : Walk}

/-- How a cursor stands when a walk stands at a place. -/
inductive Placed (e : Engine) (sheets : List Sheet) (c : Cursor) : Walk → Prop
  | start (stage : c.stage = .betweenResults) (position : c.position = none)
      (onRow : c.onRow = false) : Placed e sheets c ⟨0, 0⟩
  /-- The first row, if there is one, is fetched already. -/
  | before {i : Nat} {sheet : Sheet} (sheet_eq : sheets[i]? = some sheet)
      (stage : c.stage = .beforeResult) (position : c.position = some i) (onRow : c.onRow = false)
      (pending : c.pending = decide (0 < sheet.rows.length))
      (nextRow : c.nextRow = min 1 sheet.rows.length)
      (holds : ∀ row, sheet.rows[0]? = some row → c.buffer.Holds e row) :
      Placed e sheets c ⟨i + 1, 0⟩
  /-- On the row `r`, or behind the last one. -/
  | within {i r : Nat} {sheet : Sheet} (sheet_eq : sheets[i]? = some sheet)
      (stage : c.stage = .inResult) (position : c.position = some i)
      (row_le : r ≤ sheet.rows.length) (onRow : c.onRow = decide (r < sheet.rows.length))
      (nextRow : c.nextRow = min (r + 1) sheet.rows.length)
      (holds : ∀ row, sheet.rows[r]? = some row → c.buffer.Holds e row) :
      Placed e sheets c ⟨i + 1, r + 1⟩
  | behind (stage : c.stage = .consumed) (position : c.position = some sheets.length)
      (onRow : c.onRow = false) : Placed e sheets c ⟨sheets.length + 1, 0⟩

/-- The cursor shows its caller what the walk shows. -/
structure Tracks (e : Engine) (sheets : List Sheet) (c : Cursor) (w : Walk) : Prop where
  results : List.Forall₂ (e.Presents c.behavior.schemaOnly) sheets c.outcomes
  fields : c.fields = Field.ofColumns (w.columns sheets)
  sized : c.buffer.Sized c.fields.length
  placed : Placed e sheets c w

/-! ## What can be seen -/

theorem Tracks.isClosed (h : Tracks e sheets c w) : c.isClosed = false := by
  unfold Cursor.isClosed
  cases h.placed <;> simp [*]

theorem Tracks.presents (h : Tracks e sheets c w) {i : Nat} {sheet : Sheet}
    (hsheet : sheets[i]? = some sheet) :
    ∃ o, c.outcomes[i]? = some o ∧ e.Presents c.behavior.schemaOnly sheet o := by
  obtain ⟨hi, rfl⟩ := List.getElem?_eq_some_iff.mp hsheet
  have hi' : i < c.outcomes.length := h.results.length_eq ▸ hi
  exact ⟨c.outcomes[i], List.getElem?_eq_getElem hi', h.results.get hi hi'⟩

theorem Tracks.rectangular (h : Tracks e sheets c w) :
    ∀ sheet ∈ sheets, ∀ row ∈ sheet.rows, row.length = sheet.columns.length := by
  intro sheet hsheet
  obtain ⟨i, hi⟩ := List.mem_iff_getElem?.mp hsheet
  obtain ⟨o, -, hpresents⟩ := h.presents hi
  exact hpresents.rectangular

/-- The cursor has a current row if the walk has one, and it is the same row. -/
theorem Tracks.row (h : Tracks e sheets c w) :
    c.onRow = (w.row? sheets).isSome ∧
      ∀ row, w.row? sheets = some row →
        c.buffer.Holds e row ∧ row.length = c.fields.length := by
  cases h.placed with
  | start _ _ honRow => exact ⟨honRow, nofun⟩
  | before _ _ _ honRow _ _ _ => exact ⟨honRow, nofun⟩
  | behind _ _ honRow => exact ⟨honRow, nofun⟩
  | @within i r sheet hsheet _ _ _ honRow _ hholds =>
    rw [Walk.row?_succ r hsheet]
    refine ⟨?_, fun row hrow => ⟨hholds row hrow, ?_⟩⟩
    · rw [honRow]
      by_cases hr : r < sheet.rows.length
      · rw [decide_eq_true hr, List.getElem?_eq_getElem hr]
        rfl
      · rw [decide_eq_false hr, List.getElem?_eq_none (Nat.le_of_not_lt hr)]
        rfl
    · obtain ⟨o, -, hpresents⟩ := h.presents hsheet
      rw [h.fields, Walk.columns_of_sheet hsheet, Field.length_ofColumns]
      exact hpresents.rectangular row (List.mem_of_getElem? hrow)

theorem Tracks.rowCount (h : Tracks e sheets c w) :
    c.rowCount = ((w.sheet? sheets).map (·.rows.length)).getD 0 := by
  have hsome : ∀ {i : Nat} {sheet : Sheet} (row : Nat), c.position = some i →
      sheets[i]? = some sheet →
      c.rowCount = ((Walk.sheet? sheets ⟨i + 1, row⟩).map (·.rows.length)).getD 0 := by
    intro i sheet row hposition hsheet
    obtain ⟨o, ho, hpresents⟩ := h.presents hsheet
    have houtcome : c.outcome? = some o := by rw [outcome?, hposition, Option.bind_some, ho]
    rw [rowCount_eq houtcome hpresents, Walk.sheet?_succ, hsheet, Option.map_some, Option.getD_some]
  have hnone : c.outcome? = none → c.rowCount = 0 := by
    intro houtcome
    unfold Cursor.rowCount source?
    rw [houtcome]
    cases c.behavior.schemaOnly <;> rfl
  cases h.placed with
  | start _ hposition _ => exact hnone (by rw [outcome?, hposition, Option.bind_none])
  | before hsheet _ hposition _ _ _ _ => exact hsome _ hposition hsheet
  | within hsheet _ hposition _ _ _ _ => exact hsome _ hposition hsheet
  | behind _ hposition _ =>
    have hend : c.outcomes[sheets.length]? = none :=
      List.getElem?_eq_none (Nat.le_of_eq h.results.length_eq.symm)
    rw [hnone (by rw [outcome?, hposition, Option.bind_some, hend]), Walk.sheet?_succ,
      List.getElem?_eq_none (Nat.le_refl _)]
    rfl

theorem Tracks.field (h : Tracks e sheets c w) (i : Nat) :
    c.field i = (fun column => ⟨column.name, Oid.record, i, column.type, column.size,
      column.modifier⟩) <$> w.column sheets i := by
  rw [field_eq h.isClosed, h.fields, Field.getElem?_ofColumns, Field.length_ofColumns, Walk.column]
  cases (w.columns sheets)[i]? <;> rfl

/-! ## Values -/

theorem Tracks.rowField (h : Tracks e sheets c w) (i : Nat) :
    (∃ err, c.rowField i = .error err ∧ w.value sheets i = .error err) ∨
      ∃ f row v, c.rowField i = .ok f ∧ w.value sheets i = .ok v ∧
        c.buffer.Holds e row ∧ row[i]? = some v := by
  obtain ⟨honRow, hcurrent⟩ := h.row
  rw [rowField_eq h.isClosed, honRow]
  unfold Walk.value
  cases hrow : w.row? sheets with
  | none => exact .inl ⟨_, rfl, rfl⟩
  | some row =>
    obtain ⟨hholds, hlength⟩ := hcurrent row hrow
    dsimp only [Option.isSome_some]
    rw [if_pos rfl, field_eq h.isClosed]
    by_cases hi : i < row.length
    · have hf : i < c.fields.length := hlength ▸ hi
      rw [List.getElem?_eq_getElem hi, List.getElem?_eq_getElem hf]
      exact .inr ⟨_, row, row[i], rfl, rfl, hholds, List.getElem?_eq_getElem hi⟩
    · have hi : row.length ≤ i := Nat.le_of_not_lt hi
      rw [List.getElem?_eq_none hi, List.getElem?_eq_none (hlength ▸ hi), hlength]
      exact .inl ⟨_, rfl, rfl⟩

theorem Tracks.value (he : e.Undisturbed) (h : Tracks e sheets c w) (i : Nat) :
    c.value e i = w.value sheets i := by
  rcases h.rowField i with ⟨err, hc, hw⟩ | ⟨f, row, v, hc, hw, hholds, hv⟩
  · rw [value_of_error hc, hw]
  · rw [value_of_row he hc hholds hv, hw]

theorem Tracks.isNull (h : Tracks e sheets c w) (i : Nat) :
    c.isNull i = Value.isNull <$> w.value sheets i := by
  rcases h.rowField i with ⟨err, hc, hw⟩ | ⟨f, row, v, hc, hw, hholds, hv⟩
  · rw [isNull_of_error hc, hw]
    rfl
  · rw [isNull_of_row hc hholds hv, hw]
    rfl

theorem Tracks.values (he : e.Undisturbed) (h : Tracks e sheets c w) :
    c.values e = w.values sheets := by
  have hvalue : c.value e = w.value sheets := funext fun i => h.value he i
  have hcolumns : c.fields.length = (w.columns sheets).length := by
    rw [h.fields, Field.length_ofColumns]
  unfold Cursor.values Walk.values
  rw [hvalue]
  cases hrow : w.row? sheets with
  | some row =>
    rw [← (h.row.2 row hrow).2]
    refine Effect.mapM_range_eq_ok fun i v hv => ?_
    simp only [Walk.value, hrow, hv]
  | none =>
    rw [hcolumns]
    cases hw : w.columns sheets with
    | nil => rfl
    | cons column columns =>
      have hfirst : w.value sheets 0 = .error (.state .noRow) := by simp only [Walk.value, hrow]
      rw [List.length_cons, List.range_succ_eq_map, List.mapM_cons, hfirst]
      rfl

/-! ## Moves -/

/-- As long as a cursor is not behind its last result, the next one that it looks for is the next one
of the walk. -/
theorem Tracks.live (h : Tracks e sheets c w) :
    (c.Live ∧ c.nextPosition = w.result ∧ w.result ≤ sheets.length) ∨
      (c.stage = .consumed ∧ w = ⟨sheets.length + 1, 0⟩) := by
  unfold nextPosition Live
  cases h.placed with
  | start hstage hposition _ =>
    rw [hposition]
    exact .inl ⟨.inl hstage, rfl, Nat.zero_le _⟩
  | before hsheet hstage hposition _ _ _ _ =>
    rw [hposition]
    exact .inl ⟨.inr (.inl hstage), rfl, (List.getElem?_eq_some_iff.mp hsheet).1⟩
  | within hsheet hstage hposition _ _ _ _ =>
    rw [hposition]
    exact .inl ⟨.inr (.inr hstage), rfl, (List.getElem?_eq_some_iff.mp hsheet).1⟩
  | behind hstage _ _ => exact .inr ⟨hstage, rfl⟩

/-- A cursor that comes to a result stands before its first row, which it fetches at once. -/
theorem Tracks.enter (he : e.Undisturbed) (h : Tracks e sheets c w) (hlive : c.Live) {i : Nat}
    {sheet : Sheet} (hposition : c.nextPosition = i) (hsheet : sheets[i]? = some sheet) :
    ∃ c', nextResult e c = .ok true c' ∧ Tracks e sheets c' ⟨i + 1, 0⟩ := by
  obtain ⟨o, ho, hpresents⟩ := h.presents hsheet
  subst hposition
  have hfields : (c.enter e c.nextPosition o).fields = Field.ofColumns sheet.columns :=
    fields_eq he hpresents
  have hcolumns : Walk.columns sheets ⟨c.nextPosition + 1, 0⟩ = sheet.columns :=
    Walk.columns_of_sheet hsheet
  have hsized : (c.enter e c.nextPosition o).buffer.Sized (c.enter e c.nextPosition o).fields.length :=
    RowBuffer.sized_blank _
  rw [← hcolumns] at hfields
  have hempty : (c.enter e c.nextPosition o).rowCount = 0 → sheet.rows = [] →
      ∃ c', nextResult e c = .ok true c' ∧ Tracks e sheets c' ⟨c.nextPosition + 1, 0⟩ := by
    intro hcount hrows
    refine ⟨_, nextResult_of_empty hlive ho hcount, h.results, hfields, hsized, ?_⟩
    refine .before hsheet rfl rfl rfl ?_ ?_ ?_
    · rw [hrows]
      rfl
    · rw [hrows]
      rfl
    · rw [hrows]
      exact nofun
  rcases source?_eq (c := c.enter e c.nextPosition o) ho hpresents with
    ⟨hsource, hrows⟩ | ⟨t, hsource, hshows⟩
  · exact hempty (by rw [Cursor.rowCount, hsource]) hrows
  · cases hrows : sheet.rows with
    | nil => exact hempty (by rw [Cursor.rowCount, hsource, hrows]; rfl) hrows
    | cons row rows =>
      have hrow : sheet.rows[0]? = some row := by rw [hrows]; rfl
      have hlength : row.length = (c.enter e c.nextPosition o).fields.length := by
        rw [hfields, Field.length_ofColumns, hcolumns]
        exact hpresents.rectangular row (List.mem_of_getElem? hrow)
      obtain ⟨b, hfetch, hholds⟩ := fetch_eq_ok he hshows hrow (hlength ▸ hsized)
      rw [hrows, List.length_cons] at hsource
      refine ⟨_, nextResult_of_rows hlive ho hsource hfetch, h.results, hfields, ?_, ?_⟩
      · exact hlength ▸ hholds.sized
      · refine .before hsheet rfl rfl rfl ?_ ?_ ?_
        · rw [hrows]
          rfl
        · rw [hrows, List.length_cons]
          exact (Nat.min_eq_left (Nat.le_add_left 1 _)).symm
        · intro row' hrow'
          obtain rfl : row = row' := Option.some.inj (hrow.symm.trans hrow')
          exact hholds

theorem Tracks.nextResult (he : e.Undisturbed) (h : Tracks e sheets c w) :
    ∃ c', Cursor.nextResult e c = .ok (w.nextResult sheets).1 c' ∧
      Tracks e sheets c' (w.nextResult sheets).2 := by
  unfold Walk.nextResult
  rcases h.live with ⟨hlive, hposition, hle⟩ | ⟨hstage, rfl⟩
  · by_cases hlt : w.result < sheets.length
    · rw [if_pos hlt]
      exact h.enter he hlive hposition (List.getElem?_eq_getElem hlt)
    · rw [if_neg hlt]
      have hend : w.result = sheets.length := Nat.le_antisymm hle (Nat.le_of_not_lt hlt)
      have hnone : c.outcomes[c.nextPosition]? = none := by
        rw [hposition, hend, h.results.length_eq]
        exact List.getElem?_eq_none (Nat.le_refl _)
      refine ⟨_, nextResult_of_none hlive hnone, h.results, ?_, h.sized, ?_⟩
      · obtain ⟨result, row⟩ := w
        obtain rfl : result = sheets.length := hend
        rw [Walk.columns_behind row]
        exact h.fields
      · refine .behind rfl ?_ rfl
        show some c.outcomes.length = _
        rw [h.results.length_eq]
  · rw [if_neg (Nat.not_lt.mpr (Nat.le_succ _))]
    refine ⟨c, nextResult_of_stuck ?_, h⟩
    simp [Live, hstage]

theorem Tracks.advance (he : e.Undisturbed) {i r : Nat} {sheet : Sheet}
    (h : Tracks e sheets c ⟨i + 1, r + 1⟩) (hsheet : sheets[i]? = some sheet)
    (hstage : c.stage = .inResult) (hposition : c.position = some i)
    (hnext : c.nextRow = r + 1) (hr : r + 1 < sheet.rows.length) :
    ∃ c', read e c = .ok true c' ∧ Tracks e sheets c' ⟨i + 1, r + 2⟩ := by
  obtain ⟨o, ho, hpresents⟩ := h.presents hsheet
  have houtcome : c.outcome? = some o := by rw [outcome?, hposition, Option.bind_some, ho]
  have hfields : c.fields = Field.ofColumns sheet.columns := by
    rw [h.fields, Walk.columns_of_sheet hsheet]
  obtain ⟨row, hrow⟩ : ∃ row, sheet.rows[r + 1]? = some row := ⟨_, List.getElem?_eq_getElem hr⟩
  have hlength : row.length = c.fields.length := by
    rw [hfields, Field.length_ofColumns]
    exact hpresents.rectangular row (List.mem_of_getElem? hrow)
  rcases source?_eq houtcome hpresents with ⟨-, hrows⟩ | ⟨t, hsource, hshows⟩
  · rw [hrows] at hr
    exact absurd hr (Nat.not_lt_zero _)
  · rw [← hnext] at hrow
    obtain ⟨b, hfetch, hholds⟩ := fetch_eq_ok he hshows hrow (hlength ▸ h.sized)
    refine ⟨_, read_of_row hstage hsource (hnext ▸ hr) hfetch, h.results, ?_, ?_, ?_⟩
    · rw [Walk.columns_of_sheet hsheet]
      exact hfields
    · exact hlength ▸ hholds.sized
    · refine .within hsheet hstage hposition (Nat.le_of_lt hr) (decide_eq_true hr).symm ?_ ?_
      · show c.nextRow + 1 = _
        omega
      · intro row' hrow'
        rw [← hnext, hrow] at hrow'
        obtain rfl := Option.some.inj hrow'
        exact hholds

theorem Tracks.read (he : e.Undisturbed) (h : Tracks e sheets c w) :
    ∃ c', Cursor.read e c = .ok (w.read sheets).1 c' ∧ Tracks e sheets c' (w.read sheets).2 := by
  cases h.placed with
  | start hstage _ _ =>
    refine ⟨c, read_of_stuck ?_, h⟩
    simp [hstage]
  | behind hstage _ _ =>
    rw [Walk.read_behind]
    refine ⟨c, read_of_stuck ?_, h⟩
    simp [hstage]
  | @before i sheet hsheet hstage hposition honRow hpending hnext hholds =>
    have hfields : c.fields = Field.ofColumns (Walk.columns sheets ⟨i + 1, 1⟩) := by
      rw [Walk.columns_of_sheet hsheet, ← Walk.columns_of_sheet hsheet]
      exact h.fields
    have hread : Walk.read sheets ⟨i + 1, 0⟩ = (decide (0 < sheet.rows.length), ⟨i + 1, 1⟩) := by
      rw [Walk.read_of_sheet 0 hsheet]
      cases sheet.rows with
      | nil => rfl
      | cons row rows => rfl
    rw [hread, ← hpending]
    refine ⟨_, read_of_beforeResult hstage, h.results, hfields, h.sized, ?_⟩
    exact .within hsheet rfl hposition (Nat.zero_le _) hpending hnext hholds
  | @within i r sheet hsheet hstage hposition hle honRow hnext hholds =>
    rw [Walk.read_of_sheet (r + 1) hsheet]
    by_cases hlt : r + 1 < sheet.rows.length
    · rw [if_pos hlt]
      exact h.advance he hsheet hstage hposition (by omega) hlt
    · rw [if_neg hlt]
      have hcount : c.rowCount = sheet.rows.length := by
        rw [h.rowCount, Walk.sheet?_succ, hsheet]
        rfl
      refine ⟨_, read_of_end hstage (by omega), h.results, ?_, h.sized, ?_⟩
      · rw [Walk.columns_of_sheet hsheet, ← Walk.columns_of_sheet hsheet]
        exact h.fields
      · refine .within hsheet hstage hposition (Nat.le_refl _) ?_ ?_ ?_
        · exact (decide_eq_false (Nat.lt_irrefl _)).symm
        · show c.nextRow = _
          omega
        · rw [List.getElem?_eq_none (Nat.le_refl _)]
          exact nofun

/-! ## All answers -/

/-- A cursor answers like its walk, and goes where the walk goes. -/
theorem Tracks.reply (he : e.Undisturbed) (h : Tracks e sheets c w) (ask : Ask) :
    (Cursor.reply e ask c).1 = (Walk.reply sheets ask w).1 ∧
      Tracks e sheets (Cursor.reply e ask c).2 (Walk.reply sheets ask w).2 := by
  cases ask with
  | nextResult =>
    obtain ⟨c', hnext, hc'⟩ := h.nextResult he
    simp only [Cursor.reply, Walk.reply, hnext, reported]
    exact ⟨trivial, hc'⟩
  | read =>
    obtain ⟨c', hread, hc'⟩ := h.read he
    simp only [Cursor.reply, Walk.reply, hread, reported]
    exact ⟨trivial, hc'⟩
  | value i =>
    refine ⟨?_, h⟩
    show Reply.value <$> c.value e i = Reply.value <$> w.value sheets i
    rw [h.value he]
  | isNull i =>
    refine ⟨?_, h⟩
    show Reply.flag <$> c.isNull i = Reply.flag <$> Value.isNull <$> w.value sheets i
    rw [h.isNull]
  | values =>
    refine ⟨?_, h⟩
    show Reply.values <$> c.values e = Reply.values <$> w.values sheets
    rw [h.values he]
  | fieldCount =>
    refine ⟨?_, h⟩
    show Except.ok (Reply.count c.fields.length) = .ok (.count (w.columns sheets).length)
    rw [h.fields, Field.length_ofColumns]
  | name i =>
    refine ⟨?_, h⟩
    show Reply.text <$> Field.name <$> c.field i = Reply.text <$> Column.name <$> w.column sheets i
    rw [h.field]
    cases w.column sheets i <;> rfl
  | typeOid i =>
    refine ⟨?_, h⟩
    show Reply.oid <$> Field.type <$> c.field i = Reply.oid <$> Column.type <$> w.column sheets i
    rw [h.field]
    cases w.column sheets i <;> rfl
  | hasRows =>
    refine ⟨?_, h⟩
    show Except.ok (Reply.flag c.hasRows) = .ok (.flag (w.hasRows sheets))
    rw [Cursor.hasRows, h.isClosed, h.rowCount, Walk.hasRows]
    cases w.sheet? sheets with
    | none => rfl
    | some sheet => cases hrows : sheet.rows <;> simp [hrows]

theorem Tracks.replies_eq (he : e.Undisturbed) (h : Tracks e sheets c w) (asks : List Ask) :
    replies (Cursor.reply e) asks c = replies (Walk.reply sheets) asks w := by
  induction asks generalizing c w with
  | nil => rfl
  | cons ask asks ih =>
    obtain ⟨hanswer, hafter⟩ := h.reply he ask
    simp only [replies]
    rw [hanswer, ih hafter]

theorem Tracks.afterAsks (he : e.Undisturbed) (h : Tracks e sheets c w) (asks : List Ask) :
    Tracks e sheets (afterAsks (Cursor.reply e) asks c) (afterAsks (Walk.reply sheets) asks w) := by
  induction asks generalizing c w with
  | nil => exact h
  | cons ask asks ih => exact ih (h.reply he ask).2

end Cursor
end SqlSession
