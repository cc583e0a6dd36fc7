import Mathlib.Data.List.Induction
import SqlSession.Session.Step

/-!
# Walks over plain results

A walk is what a cursor is for its callers: a position among the results of a command, and a
position among the rows of the current result.  The results are plain tables, so a walk knows
nothing of handles, buffers, stages or rows that are fetched ahead.

`Ask` is what a caller can ask before the end of the cursor.  `Walk.reply` and `Cursor.reply` say
what a walk and a cursor answer.
-/

namespace SqlSession

structure Sheet where
  columns : List Column
  rows : List (List Value)

namespace Sheet

/-- What callers see of an answer.  Without a table there are neither columns nor rows, and if only
the schema is wanted there are no rows. -/
def ofResponse (schemaOnly : Bool) : Response → Sheet
  | .rows columns rows => ⟨columns, if schemaOnly then [] else rows⟩
  | .command _ => ⟨[], []⟩
  | .failure _ => ⟨[], []⟩

end Sheet

/-- What a caller can ask of a cursor that has not ended. -/
inductive Ask
  | nextResult
  | read
  | value (i : Nat)
  | isNull (i : Nat)
  | values
  | fieldCount
  | name (i : Nat)
  | typeOid (i : Nat)
  | hasRows
deriving DecidableEq

def replies {σ : Type} (reply : Ask → σ → Except Error Reply × σ) :
    List Ask → σ → List (Except Error Reply)
  | [], _ => []
  | ask :: asks, s => (reply ask s).1 :: replies reply asks (reply ask s).2

def afterAsks {σ : Type} (reply : Ask → σ → Except Error Reply × σ) (asks : List Ask) (s : σ) : σ :=
  asks.foldl (fun s ask => (reply ask s).2) s

def answerAfter {σ : Type} (reply : Ask → σ → Except Error Reply × σ) (asks : List Ask) (ask : Ask)
    (s : σ) : Except Error Reply :=
  (reply ask (afterAsks reply asks s)).1

/-! ## Walks -/

structure Walk where
  /-- How many results the walk has come to.  Behind the last one it is one more than there are. -/
  result : Nat := 0
  /-- How many rows of the current result the walk has come to.  Behind the last one it is one more
  than there are. -/
  row : Nat := 0
deriving DecidableEq

namespace Walk

variable (sheets : List Sheet)

def sheet? (w : Walk) : Option Sheet :=
  match w.result with
  | 0 => none
  | i + 1 => sheets[i]?

def row? (w : Walk) : Option (List Value) :=
  match w.row with
  | 0 => none
  | i + 1 => (w.sheet? sheets).bind (·.rows[i]?)

/-- The columns of the result that the walk has come to last, also when it is behind that one. -/
def columns (w : Walk) : List Column :=
  match (sheets.take w.result).getLast? with
  | some sheet => sheet.columns
  | none => []

def nextResult (w : Walk) : Bool × Walk :=
  if w.result < sheets.length then (true, ⟨w.result + 1, 0⟩)
  else (false, ⟨sheets.length + 1, 0⟩)

/-- Goes to the next row of the current result, and tells whether there is one. -/
def read (w : Walk) : Bool × Walk :=
  match w.sheet? sheets with
  | some sheet =>
    if w.row < sheet.rows.length then (true, { w with row := w.row + 1 })
    else (false, { w with row := sheet.rows.length + 1 })
  | none => (false, w)

def column (w : Walk) (i : Nat) : Except Error Column :=
  match (w.columns sheets)[i]? with
  | some column => .ok column
  | none => .error (.range (.ordinal i (w.columns sheets).length))

def value (w : Walk) (i : Nat) : Except Error Value :=
  match w.row? sheets with
  | none => .error (.state .noRow)
  | some row =>
    match row[i]? with
    | some v => .ok v
    | none => .error (.range (.ordinal i row.length))

/-- All values of the current row.  Without a current row nothing can be had of any column, which
is no failure if there are no columns. -/
def values (w : Walk) : Except Error (List Value) :=
  match w.row? sheets with
  | some row => .ok row
  | none => if (w.columns sheets).isEmpty then .ok [] else .error (.state .noRow)

def hasRows (w : Walk) : Bool :=
  (w.sheet? sheets).any fun sheet => !sheet.rows.isEmpty

def reply (ask : Ask) (w : Walk) : Except Error Reply × Walk :=
  match ask with
  | .nextResult => (.ok (.flag (w.nextResult sheets).1), (w.nextResult sheets).2)
  | .read => (.ok (.flag (w.read sheets).1), (w.read sheets).2)
  | .value i => (.value <$> w.value sheets i, w)
  | .isNull i => (.flag <$> Value.isNull <$> w.value sheets i, w)
  | .values => (.values <$> w.values sheets, w)
  | .fieldCount => (.ok (.count (w.columns sheets).length), w)
  | .name i => (.text <$> Column.name <$> w.column sheets i, w)
  | .typeOid i => (.oid <$> Column.type <$> w.column sheets i, w)
  | .hasRows => (.ok (.flag (w.hasRows sheets)), w)

end Walk

/-! ## Positions -/

namespace Walk

variable {sheets : List Sheet}

theorem sheet?_succ (i row : Nat) : sheet? sheets ⟨i + 1, row⟩ = sheets[i]? := rfl

theorem row?_succ {i : Nat} {sheet : Sheet} (r : Nat) (h : sheets[i]? = some sheet) :
    row? sheets ⟨i + 1, r + 1⟩ = sheet.rows[r]? := by
  show (sheets[i]?).bind _ = _
  rw [h, Option.bind_some]

theorem row?_eq_some {w : Walk} {row : List Value} (h : w.row? sheets = some row) :
    ∃ i r sheet, w = ⟨i + 1, r + 1⟩ ∧ sheets[i]? = some sheet ∧ sheet.rows[r]? = some row := by
  obtain ⟨_ | i, _ | r⟩ := w
  · cases h
  · cases h
  · cases h
  · cases hsheet : sheets[i]? with
    | none =>
      have hnone : row? sheets ⟨i + 1, r + 1⟩ = none := by
        show (sheets[i]?).bind _ = _
        rw [hsheet, Option.bind_none]
      rw [hnone] at h
      cases h
    | some sheet =>
      rw [row?_succ r hsheet] at h
      exact ⟨i, r, sheet, rfl, hsheet, h⟩

theorem columns_of_sheet {i row : Nat} {sheet : Sheet} (h : sheets[i]? = some sheet) :
    columns sheets ⟨i + 1, row⟩ = sheet.columns := by
  have hlast : (sheets.take (i + 1)).getLast? = some sheet := by
    rw [List.getLast?_take, if_neg (Nat.succ_ne_zero i), Nat.add_sub_cancel, h, Option.some_or]
  simp only [columns, hlast]

/-- Behind the last result its columns can still be seen. -/
theorem columns_behind (row : Nat) :
    columns sheets ⟨sheets.length + 1, 0⟩ = columns sheets ⟨sheets.length, row⟩ := by
  simp only [columns, List.take_length, List.take_of_length_le (Nat.le_succ sheets.length)]

theorem read_of_sheet {i : Nat} {sheet : Sheet} (r : Nat) (h : sheets[i]? = some sheet) :
    read sheets ⟨i + 1, r⟩ =
      if r < sheet.rows.length then (true, ⟨i + 1, r + 1⟩)
      else (false, ⟨i + 1, sheet.rows.length + 1⟩) := by
  unfold read
  rw [sheet?_succ, h]

theorem read_behind : read sheets ⟨sheets.length + 1, 0⟩ = (false, ⟨sheets.length + 1, 0⟩) := by
  unfold read
  rw [sheet?_succ, List.getElem?_eq_none (Nat.le_refl _)]

theorem nextResult_first : (Walk.nextResult sheets {}).2 = ⟨1, 0⟩ := by
  unfold nextResult
  split
  · rfl
  · next hnot => rw [Nat.eq_zero_of_not_pos hnot]

theorem read_result (w : Walk) : (w.read sheets).2.result = w.result := by
  unfold read
  split
  · split <;> rfl
  · rfl

theorem row?_of_read {w : Walk} (h : (w.read sheets).1 = true) :
    ∃ values, (w.read sheets).2.row? sheets = some values := by
  unfold read at h ⊢
  cases hsheet : w.sheet? sheets with
  | none =>
    rw [hsheet] at h
    cases h
  | some sheet =>
    rw [hsheet] at h
    dsimp only at h ⊢
    by_cases hlt : w.row < sheet.rows.length
    · rw [if_pos hlt]
      refine ⟨sheet.rows[w.row], ?_⟩
      show (w.sheet? sheets).bind (·.rows[w.row]?) = _
      rw [hsheet, Option.bind_some, List.getElem?_eq_getElem hlt]
    · rw [if_neg hlt] at h
      cases h

/-- How many rows have been asked for since the last time that a result was asked for. -/
def rowsAsked (asks : List Ask) : Nat :=
  asks.foldl (fun count ask =>
    match ask with
    | .nextResult => 0
    | .read => count + 1
    | _ => count) 0

/-- Where a walk would stand if there were results and rows without end. -/
def counted (asks : List Ask) : Walk := ⟨asks.count .nextResult, rowsAsked asks⟩

/-- A walk stands where the questions have led it, but at most one step behind the last result and
one step behind the last row. -/
structure Counted (sheets : List Sheet) (asks : List Ask) (w : Walk) : Prop where
  result : w.result = min (asks.count .nextResult) (sheets.length + 1)
  row : ∀ sheet, w.sheet? sheets = some sheet → w.row = min (rowsAsked asks) (sheet.rows.length + 1)

theorem Counted.nextResult {asks : List Ask} {w : Walk} (h : Counted sheets asks w) :
    Counted sheets (asks ++ [.nextResult]) (w.nextResult sheets).2 := by
  have hresult := h.result
  have hcount : (asks ++ [Ask.nextResult]).count .nextResult = asks.count .nextResult + 1 := by
    simp
  have hrows : rowsAsked (asks ++ [.nextResult]) = 0 := by simp [rowsAsked]
  unfold Walk.nextResult
  by_cases hlt : w.result < sheets.length
  · rw [if_pos hlt]
    refine ⟨?_, fun sheet _ => by rw [hrows, Nat.zero_min]⟩
    show w.result + 1 = _
    omega
  · rw [if_neg hlt]
    refine ⟨?_, fun sheet _ => by rw [hrows, Nat.zero_min]⟩
    show sheets.length + 1 = _
    omega

theorem Counted.read {asks : List Ask} {w : Walk} (h : Counted sheets asks w) :
    Counted sheets (asks ++ [.read]) (w.read sheets).2 := by
  have hcount : (asks ++ [Ask.read]).count .nextResult = asks.count .nextResult := by simp
  have hrows : rowsAsked (asks ++ [.read]) = rowsAsked asks + 1 := by simp [rowsAsked]
  unfold Walk.read
  split
  · next sheet hsheet =>
    have hrow := h.row sheet hsheet
    by_cases hlt : w.row < sheet.rows.length
    · rw [if_pos hlt]
      refine ⟨hcount ▸ h.result, fun other hother => ?_⟩
      obtain rfl : sheet = other := Option.some.inj (hsheet.symm.trans hother)
      show w.row + 1 = _
      omega
    · rw [if_neg hlt]
      refine ⟨hcount ▸ h.result, fun other hother => ?_⟩
      obtain rfl : sheet = other := Option.some.inj (hsheet.symm.trans hother)
      show sheet.rows.length + 1 = _
      omega
  · next hsheet =>
    refine ⟨hcount ▸ h.result, fun sheet hsome => ?_⟩
    rw [hsheet] at hsome
    cases hsome

theorem Counted.look {asks : List Ask} {w : Walk} {ask : Ask} (h : Counted sheets asks w)
    (hcount : (asks ++ [ask]).count .nextResult = asks.count .nextResult)
    (hrows : rowsAsked (asks ++ [ask]) = rowsAsked asks) : Counted sheets (asks ++ [ask]) w := by
  refine ⟨?_, fun sheet hsheet => ?_⟩
  · rw [hcount]
    exact h.result
  · rw [hrows]
    exact h.row sheet hsheet

theorem counted_afterAsks (asks : List Ask) :
    Counted sheets asks (afterAsks (reply sheets) asks {}) := by
  induction asks using List.reverseRec with
  | nil => exact ⟨rfl, nofun⟩
  | append_singleton asks ask ih =>
    have hafter : afterAsks (reply sheets) (asks ++ [ask]) {} =
        (reply sheets ask (afterAsks (reply sheets) asks {})).2 := by
      simp only [afterAsks, List.foldl_append, List.foldl_cons, List.foldl_nil]
    rw [hafter]
    cases ask with
    | nextResult => exact ih.nextResult
    | read => exact ih.read
    | value _ | isNull _ | values | fieldCount | name _ | typeOid _ | hasRows =>
      exact ih.look (by simp) (by simp [rowsAsked])

/-! ## What the counts tell -/

theorem Counted.sheet?_eq {asks : List Ask} {w : Walk} (h : Counted sheets asks w) :
    w.sheet? sheets = (counted asks).sheet? sheets := by
  have hresult := h.result
  unfold Walk.sheet? counted
  dsimp only
  by_cases hle : asks.count .nextResult ≤ sheets.length + 1
  · rw [hresult, Nat.min_eq_left hle]
  · have hw : w.result = sheets.length + 1 := by omega
    obtain ⟨k, hk⟩ : ∃ k, asks.count .nextResult = k + 1 := ⟨asks.count .nextResult - 1, by omega⟩
    rw [hw, hk]
    show sheets[sheets.length]? = sheets[k]?
    rw [List.getElem?_eq_none (Nat.le_refl _), List.getElem?_eq_none (by omega)]

theorem Counted.row?_eq {asks : List Ask} {w : Walk} (h : Counted sheets asks w) :
    w.row? sheets = (counted asks).row? sheets := by
  have hsheet := h.sheet?_eq
  have hrow := h.row
  unfold Walk.row?
  rw [hsheet] at hrow ⊢
  cases hcurrent : (counted asks).sheet? sheets with
  | none => cases w.row <;> cases (counted asks).row <;> rfl
  | some sheet =>
    have hw : w.row = min (rowsAsked asks) (sheet.rows.length + 1) := hrow sheet hcurrent
    have hcounted : (counted asks).row = rowsAsked asks := rfl
    rw [hcounted]
    by_cases hle : rowsAsked asks ≤ sheet.rows.length + 1
    · rw [hw, Nat.min_eq_left hle]
    · have hw : w.row = sheet.rows.length + 1 := by omega
      obtain ⟨k, hk⟩ : ∃ k, rowsAsked asks = k + 1 := ⟨rowsAsked asks - 1, by omega⟩
      rw [hw, hk]
      show sheet.rows[sheet.rows.length]? = sheet.rows[k]?
      rw [List.getElem?_eq_none (Nat.le_refl _), List.getElem?_eq_none (by omega)]

theorem nextResult_after (asks : List Ask) :
    answerAfter (reply sheets) asks .nextResult {} =
      .ok (.flag (decide (asks.count .nextResult < sheets.length))) := by
  have hresult := (@counted_afterAsks sheets asks).result
  unfold answerAfter
  show Except.ok (Reply.flag ((afterAsks (reply sheets) asks {}).nextResult sheets).1) = _
  unfold Walk.nextResult
  by_cases hlt : asks.count .nextResult < sheets.length
  · rw [if_pos (by omega), decide_eq_true hlt]
  · rw [if_neg (by omega), decide_eq_false hlt]

theorem read_after (asks : List Ask) :
    answerAfter (reply sheets) asks .read {} =
      .ok (.flag (((counted asks).sheet? sheets).any fun sheet =>
        decide (rowsAsked asks < sheet.rows.length))) := by
  have hcounted := @counted_afterAsks sheets asks
  have hrow := hcounted.row
  unfold answerAfter
  show Except.ok (Reply.flag ((afterAsks (reply sheets) asks {}).read sheets).1) = _
  unfold Walk.read
  rw [hcounted.sheet?_eq] at hrow ⊢
  cases hcurrent : (counted asks).sheet? sheets with
  | none => rfl
  | some sheet =>
    have hrow := hrow sheet hcurrent
    dsimp only [Option.any_some]
    by_cases hlt : rowsAsked asks < sheet.rows.length
    · rw [if_pos (by omega), decide_eq_true hlt]
    · rw [if_neg (by omega), decide_eq_false hlt]

theorem value_after (asks : List Ask) (i : Nat) :
    answerAfter (reply sheets) asks (.value i) {} =
      .value <$> (counted asks).value sheets i := by
  unfold answerAfter
  show Reply.value <$> (afterAsks (reply sheets) asks {}).value sheets i = _
  unfold Walk.value
  rw [(counted_afterAsks asks).row?_eq]

theorem value_eq_ok {w : Walk} {i : Nat} {v : Value} :
    w.value sheets i = .ok v ↔ ∃ row, w.row? sheets = some row ∧ row[i]? = some v := by
  unfold Walk.value
  cases w.row? sheets with
  | none => simp
  | some row => cases h : row[i]? <;> simp [h]

/-- If no row is ragged, what has a value is a column of the current row. -/
theorem value_isOk_iff {w : Walk} {i : Nat}
    (hrect : ∀ sheet ∈ sheets, ∀ row ∈ sheet.rows, row.length = sheet.columns.length) :
    (∃ v, w.value sheets i = .ok v) ↔
      (w.row? sheets).isSome ∧ i < (w.columns sheets).length := by
  have hlength : ∀ row, w.row? sheets = some row → row.length = (w.columns sheets).length := by
    intro row hrow
    obtain ⟨k, r, sheet, rfl, hsheet, hat⟩ := row?_eq_some hrow
    rw [columns_of_sheet hsheet]
    exact hrect sheet (List.mem_of_getElem? hsheet) row (List.mem_of_getElem? hat)
  constructor
  · intro hgiven
    obtain ⟨v, hv⟩ := hgiven
    obtain ⟨row, hrow, hv⟩ := value_eq_ok.mp hv
    rw [← hlength row hrow, hrow]
    exact ⟨rfl, (List.getElem?_eq_some_iff.mp hv).1⟩
  · intro hgiven
    obtain ⟨hsome, hi⟩ := hgiven
    obtain ⟨row, hrow⟩ := Option.isSome_iff_exists.mp hsome
    rw [← hlength row hrow] at hi
    exact ⟨row[i], value_eq_ok.mpr ⟨row, hrow, List.getElem?_eq_getElem hi⟩⟩

end Walk

/-! ## Cursors -/

namespace Cursor

def reported {α : Type} (reply : α → Reply) : EStateM.Result Error Cursor α → Except Error Reply × Cursor
  | .ok a c => (.ok (reply a), c)
  | .error err c => (.error err, c)

def reply (e : Engine) (ask : Ask) (c : Cursor) : Except Error Reply × Cursor :=
  match ask with
  | .nextResult => reported .flag (nextResult e c)
  | .read => reported .flag (read e c)
  | .value i => (.value <$> c.value e i, c)
  | .isNull i => (.flag <$> c.isNull i, c)
  | .values => (.values <$> c.values e, c)
  | .fieldCount => (.ok (.count c.fields.length), c)
  | .name i => (.text <$> Field.name <$> c.field i, c)
  | .typeOid i => (.oid <$> Field.type <$> c.field i, c)
  | .hasRows => (.ok (.flag c.hasRows), c)

end Cursor
end SqlSession
