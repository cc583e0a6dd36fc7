import SqlSession.Proofs.Command.Armed
import SqlSession.Proofs.Cursor.CurrentRow
import SqlSession.Proofs.Cursor.Refinement

/-!
# Rows that cannot be fetched

A walk tells which row of a result its cursor has to fetch next: the first row of a result that it comes
to, and every other row when it is read.  If the engine fails to fetch just this row, the move of the
cursor is the error and the cursor is spent.  All other moves go as if nothing could fail.
-/

namespace SqlSession

open Effect

namespace Walk

/-- The row that has to be fetched to go to the next result, which is its first one. -/
def nextFetch? (sheets : List Sheet) (w : Walk) : Option Nat :=
  sheets[w.result]?.bind fun sheet => if sheet.rows.length = 0 then none else some 0

/-- The row of the current result that has to be fetched to read on.  The first one is there already. -/
def readFetch? (sheets : List Sheet) (w : Walk) : Option Nat :=
  (w.sheet? sheets).bind fun sheet =>
    if 0 < w.row ∧ w.row < sheet.rows.length then some w.row else none

end Walk

namespace Cursor

variable {e : Engine} {sheets : List Sheet} {c c' : Cursor} {w : Walk} {row : Nat}

/-- A cursor that a failure has stopped.  It is still open. -/
structure Spent (c : Cursor) : Prop where
  stage : c.stage = .consumed
  onRow : c.onRow = false

/-! ## What has to be fetched -/

theorem Tracks.outcome (h : Tracks e sheets c w) (hlive : c.Live) {o : Outcome}
    (ho : c.outcomes[c.nextPosition]? = some o) :
    ∃ sheet, sheets[w.result]? = some sheet ∧ e.Presents c.behavior.schemaOnly sheet o := by
  obtain ⟨-, hposition, -⟩ | ⟨hstage, -⟩ := h.live
  · obtain ⟨hlt, -⟩ := List.getElem?_eq_some_iff.mp ho
    rw [hposition, ← h.results.length_eq] at hlt
    have hsheet := List.getElem?_eq_getElem hlt
    obtain ⟨o', ho', hpresents⟩ := h.presents hsheet
    rw [hposition, ho'] at ho
    obtain rfl := Option.some.inj ho
    exact ⟨_, hsheet, hpresents⟩
  · unfold Live at hlive
    simp [hstage] at hlive

theorem Tracks.nextFetch?_eq (h : Tracks e sheets c w) (hlive : c.Live) {o : Outcome}
    (ho : c.outcomes[c.nextPosition]? = some o) :
    w.nextFetch? sheets = if (c.enter e c.nextPosition o).rowCount = 0 then none else some 0 := by
  obtain ⟨sheet, hsheet, hpresents⟩ := h.outcome hlive ho
  rw [Walk.nextFetch?, hsheet, Option.bind_some, rowCount_eq (c := c.enter e c.nextPosition o) ho hpresents]

/-- If there is a row to be fetched, there is a result for it. -/
theorem Tracks.exists_of_nextFetch? (h : Tracks e sheets c w) (hfetch : w.nextFetch? sheets = some row) :
    row = 0 ∧ c.Live ∧ ∃ o t n, c.outcomes[c.nextPosition]? = some o ∧
      (c.enter e c.nextPosition o).source? = some (t, n + 1) := by
  obtain ⟨sheet, hsheet, hrow⟩ := Option.bind_eq_some_iff.mp hfetch
  obtain ⟨hrows, hrow⟩ : sheet.rows.length ≠ 0 ∧ row = 0 := by
    split at hrow
    · cases hrow
    · next hrows => exact ⟨hrows, (Option.some.inj hrow).symm⟩
  obtain ⟨hlive, hposition, -⟩ | ⟨-, rfl⟩ := h.live
  · obtain ⟨o, ho, hpresents⟩ := h.presents hsheet
    rw [← hposition] at ho
    refine ⟨hrow, hlive, o, ?_⟩
    rcases source?_eq (c := c.enter e c.nextPosition o) ho hpresents with ⟨-, hnone⟩ | ⟨t, hsource, -⟩
    · rw [hnone] at hrows
      exact absurd rfl hrows
    · obtain ⟨n, hn⟩ := Nat.exists_eq_succ_of_ne_zero hrows
      rw [hn] at hsource
      exact ⟨t, n, ho, hsource⟩
  · rw [List.getElem?_eq_none (Nat.le_succ _)] at hsheet
    cases hsheet

theorem Tracks.readFetch?_eq (h : Tracks e sheets c w) :
    w.readFetch? sheets =
      if c.stage = .inResult ∧ c.nextRow < c.rowCount then some c.nextRow else none := by
  have hcount := h.rowCount
  unfold Walk.readFetch?
  cases h.placed with
  | start hstage _ _ => simp [hstage, Walk.sheet?]
  | before hsheet hstage _ _ _ _ _ => simp [hstage]
  | behind hstage _ _ => simp [hstage]
  | @within i r sheet hsheet hstage _ _ _ hnext _ =>
    rw [Walk.sheet?_succ, hsheet] at hcount ⊢
    have hcount : c.rowCount = sheet.rows.length := hcount
    rw [Option.bind_some]
    dsimp only
    rw [hcount, hnext]
    by_cases hmore : r + 1 < sheet.rows.length
    · rw [if_pos ⟨Nat.succ_pos r, hmore⟩, if_pos ⟨hstage, by omega⟩, Nat.min_eq_left (by omega)]
    · rw [if_neg (fun hgiven => hmore hgiven.2), if_neg (by omega)]

/-! ## Moves that do not have to fetch the row -/

theorem Tracks.nextResult_armed (he : e.Undisturbed) (h : Tracks e sheets c w)
    (hclear : w.nextFetch? sheets ≠ some row) :
    Cursor.nextResult (e.armed row) c = Cursor.nextResult e c := by
  -- Only a move that fetches the first row has to do with the engine, and it fetches another row.
  obtain ⟨c', hnext, -⟩ := h.nextResult he
  have hmove := nextResult_cases e c
  generalize hresult : Cursor.nextResult e c = result at hmove hnext ⊢
  cases hmove with
  | idle stuck => exact nextResult_of_stuck stuck
  | exhausted live behind => exact nextResult_of_none live behind
  | empty live outcome rows => exact nextResult_of_empty live outcome rows
  | failed => cases hnext
  | @fetched live o outcome t n source b hrow =>
    have hne : 0 ≠ row := by
      rintro rfl
      rw [h.nextFetch?_eq live outcome, rowCount_of_source source] at hclear
      exact hclear rfl
    have hfetch : fetch (e.armed row) t 0 (c.enter (e.armed row) c.nextPosition o) =
        .ok () { c.enter e c.nextPosition o with buffer := b } := by
      have hrow' : (e.armed row).fetchRow 0 t (c.enter (e.armed row) c.nextPosition o).buffer = .ok b :=
        (Engine.fetchRow_armed_of_ne he.fetch hne t _).trans hrow
      rw [fetch, hrow']
      rfl
    exact nextResult_of_rows (e := e.armed row) live outcome source hfetch

theorem Tracks.read_armed (he : e.Undisturbed) (h : Tracks e sheets c w)
    (hclear : w.readFetch? sheets ≠ some row) : Cursor.read (e.armed row) c = Cursor.read e c := by
  obtain ⟨c', hread, -⟩ := h.read he
  rw [h.readFetch?_eq] at hclear
  have hmove := read_cases e c
  generalize hresult : Cursor.read e c = result at hmove hread ⊢
  cases hmove with
  | idle stage => exact read_of_stuck stage
  | first stage => exact read_of_beforeResult stage
  | failed => cases hread
  | ended stage behind => exact read_of_end stage behind
  | @fetched stage t count source more b hrow =>
    rw [rowCount_of_source source, if_pos ⟨stage, more⟩] at hclear
    have hne : c.nextRow ≠ row := fun heq => hclear (congrArg some heq)
    have hfetch : fetch (e.armed row) t c.nextRow c = .ok () { c with buffer := b } := by
      rw [fetch, Engine.fetchRow_armed_of_ne he.fetch hne, hrow]
    exact read_of_row stage source more hfetch

/-! ## Moves that have to fetch it -/

theorem Tracks.nextResult_struck (h : Tracks e sheets c w) (hstrikes : w.nextFetch? sheets = some row) :
    ∃ c', Cursor.nextResult (e.armed row) c = .error (.state (.fetch row)) c' ∧ c'.Spent := by
  obtain ⟨rfl, hlive, o, t, n, ho, hsource⟩ := h.exists_of_nextFetch? hstrikes
  have hfetch : fetch (e.armed 0) t 0 (c.enter (e.armed 0) c.nextPosition o) =
      .error (.state (.fetch 0)) { c.enter e c.nextPosition o with stage := .consumed } := by
    rw [fetch, Engine.fetchRow_armed_self]
    rfl
  exact ⟨_, nextResult_of_failed hlive ho hsource hfetch, rfl, rfl⟩

theorem Tracks.read_struck (h : Tracks e sheets c w) (hstrikes : w.readFetch? sheets = some row) :
    ∃ c', Cursor.read (e.armed row) c = .error (.state (.fetch row)) c' ∧ c'.Spent := by
  rw [h.readFetch?_eq] at hstrikes
  split at hstrikes
  · next hmore =>
    obtain ⟨hstage, hmore⟩ := hmore
    obtain rfl := Option.some.inj hstrikes
    obtain ⟨t, hsource⟩ := exists_source hmore
    have hfetch : fetch (e.armed c.nextRow) t c.nextRow c =
        .error (.state (.fetch c.nextRow)) { c with stage := .consumed, onRow := false } := by
      rw [fetch, Engine.fetchRow_armed_self]
    exact ⟨_, read_of_failed hstage hsource hmore hfetch, rfl, rfl⟩
  · cases hstrikes

/-! ## Work with moves -/

variable {α β : Type} {blocked blocked' : Prop} {after : α → Cursor → Prop}
  {after' : β → Cursor → Prop}

/-- The work succeeds, and if the row cannot be fetched it fails if and only if it is blocked by that. -/
structure Struck (row : Nat) (e : Engine) (blocked : Prop) (after : α → Cursor → Prop)
    (work : Engine → CursorM α) (c : Cursor) : Prop where
  succeeds : ∃ a c', work e c = .ok a c' ∧ after a c'
  stops : blocked → ∃ c', work (e.armed row) c = .error (.state (.fetch row)) c'
  passes : ¬ blocked → work (e.armed row) c = work e c

theorem struck_of_unaware {work : Engine → CursorM α} {a : α} (h : work e c = .ok a c')
    (hsame : work (e.armed row) = work e) (hafter : after a c') : Struck row e False after work c where
  succeeds := ⟨a, c', h, hafter⟩
  stops := False.elim
  passes _ := congrFun hsame c

theorem Struck.congr {work : Engine → CursorM α} (h : Struck row e blocked after work c)
    (hiff : blocked ↔ blocked') : Struck row e blocked' after work c where
  succeeds := h.succeeds
  stops hblocked := h.stops (hiff.mpr hblocked)
  passes hclear := h.passes (mt hiff.mp hclear)

theorem Struck.bind {work : Engine → CursorM α} {next : Engine → α → CursorM β}
    (h : Struck row e blocked after work c)
    (hnext : ∀ a c', after a c' → Struck row e blocked' after' (fun e => next e a) c') :
    Struck row e (blocked ∨ blocked') after' (fun e => work e >>= next e) c := by
  obtain ⟨a, c', hwork, hafter⟩ := h.succeeds
  have hthen := hnext a c' hafter
  refine ⟨?_, fun hblocked => ?_, fun hclear => ?_⟩
  · obtain ⟨b, c'', hdone, hafter'⟩ := hthen.succeeds
    exact ⟨b, c'', bind_eq_ok.mpr ⟨a, c', hwork, hdone⟩, hafter'⟩
  · by_cases hfirst : blocked
    · obtain ⟨c'', herror⟩ := h.stops hfirst
      exact ⟨c'', bind_eq_error.mpr (.inl herror)⟩
    · obtain ⟨c'', herror⟩ := hthen.stops (hblocked.resolve_left hfirst)
      exact ⟨c'', bind_eq_error.mpr (.inr ⟨a, c', (h.passes hfirst).trans hwork, herror⟩)⟩
  · obtain ⟨hfirst, hsecond⟩ := not_or.mp hclear
    show (work (e.armed row) >>= next (e.armed row)) c = (work e >>= next e) c
    rw [bind_apply, bind_apply, h.passes hfirst, hwork]
    exact hthen.passes hsecond

/-- What follows is not blocked. -/
theorem Struck.bind_free {work : Engine → CursorM α} {next : Engine → α → CursorM β}
    (h : Struck row e blocked after work c)
    (hnext : ∀ a c', after a c' → Struck row e False after' (fun e => next e a) c') :
    Struck row e blocked after' (fun e => work e >>= next e) c :=
  (h.bind hnext).congr (or_iff_left id)

theorem Tracks.nextResult_strikes (he : e.Undisturbed) (h : Tracks e sheets c w) :
    Struck row e (w.nextFetch? sheets = some row)
      (fun more c' => more = (w.nextResult sheets).1 ∧ Tracks e sheets c' (w.nextResult sheets).2)
      Cursor.nextResult c where
  succeeds := by
    obtain ⟨c', hnext, htracks⟩ := h.nextResult he
    exact ⟨_, c', hnext, rfl, htracks⟩
  stops hstrikes := by
    obtain ⟨c', hnext, -⟩ := h.nextResult_struck hstrikes
    exact ⟨c', hnext⟩
  passes := h.nextResult_armed he

theorem Tracks.read_strikes (he : e.Undisturbed) (h : Tracks e sheets c w) :
    Struck row e (w.readFetch? sheets = some row)
      (fun more c' => more = (w.read sheets).1 ∧ Tracks e sheets c' (w.read sheets).2)
      Cursor.read c where
  succeeds := by
    obtain ⟨c', hread, htracks⟩ := h.read he
    exact ⟨_, c', hread, rfl, htracks⟩
  stops hstrikes := by
    obtain ⟨c', hread, -⟩ := h.read_struck hstrikes
    exact ⟨c', hread⟩
  passes := h.read_armed he

end Cursor

/-! ## Going over all results -/

namespace Walk

/-- To go over the results that the walk has not come to, the row has to be fetched from one of them:
it is the first one, and there is a result with rows. -/
def Blocked (sheets : List Sheet) (row : Nat) (w : Walk) : Prop :=
  row = 0 ∧ ∃ sheet ∈ sheets.drop w.result, sheet.rows.length ≠ 0

variable {sheets : List Sheet} {row : Nat} {w : Walk}

theorem not_blocked_of_behind (h : sheets.length ≤ w.result) : ¬ w.Blocked sheets row := by
  rintro ⟨-, sheet, hmem, -⟩
  rw [List.drop_eq_nil_of_le h] at hmem
  cases hmem

/-- The next result blocks the way, or one of those behind it. -/
theorem blocked_iff (r : Nat) :
    w.Blocked sheets row ↔
      w.nextFetch? sheets = some row ∨ Walk.Blocked sheets row ⟨w.result + 1, r⟩ := by
  unfold nextFetch?
  by_cases hlt : w.result < sheets.length
  · rw [List.getElem?_eq_getElem hlt, Option.bind_some]
    unfold Blocked
    simp only [List.drop_eq_getElem_cons hlt, List.mem_cons, exists_eq_or_imp]
    by_cases hrows : sheets[w.result].rows.length = 0
    · rw [if_pos hrows]
      simp [hrows]
    · rw [if_neg hrows]
      simp only [hrows, not_false_eq_true, ne_eq, true_or, and_true, Option.some.injEq]
      exact ⟨fun h => .inl h.symm, fun h => h.elim Eq.symm And.left⟩
  · have hle := Nat.le_of_not_lt hlt
    rw [List.getElem?_eq_none hle]
    refine iff_of_false (not_blocked_of_behind hle) (not_or.mpr ⟨nofun, ?_⟩)
    exact not_blocked_of_behind (Nat.le_succ_of_le hle)

theorem readFetch?_zero (result : Nat) : Walk.readFetch? sheets ⟨result, 0⟩ = none := by
  unfold readFetch?
  cases sheet? sheets ⟨result, 0⟩ <;> rfl

end Walk

namespace Cursor

variable {e : Engine} {sheets : List Sheet} {c c' : Cursor} {w : Walk} {row : Nat}

/-- With enough steps for all results that are left, the work of going over them is blocked by a first
row only. -/
theorem Tracks.skip_strikes (he : e.Undisturbed) (h : Tracks e sheets c w) {bound : Nat}
    (hbound : sheets.length < bound + w.result) :
    Struck row e (w.Blocked sheets row) (fun _ _ => True) (fun e => skip e bound) c := by
  induction bound generalizing c w with
  | zero =>
    -- All steps are used up only behind the last result.
    have hbehind : ¬ w.Blocked sheets row := Walk.not_blocked_of_behind (by omega)
    have hnothing : Struck row e False (fun _ _ => True) (fun e => skip e 0) c :=
      struck_of_unaware rfl rfl trivial
    exact hnothing.congr (iff_of_false id hbehind)
  | succ bound ih =>
    refine ((h.nextResult_strikes he).bind fun more c' hnext => ?_).congr (Walk.blocked_iff 0).symm
    obtain ⟨rfl, htracks⟩ := hnext
    unfold Walk.nextResult at htracks ⊢
    by_cases hlt : w.result < sheets.length
    · rw [if_pos hlt] at htracks ⊢
      exact ih htracks (by show sheets.length < bound + (w.result + 1); omega)
    · rw [if_neg hlt] at htracks ⊢
      have hnothing : Struck row e False (fun _ _ => True) (fun e => pure ()) c' :=
        struck_of_unaware rfl rfl trivial
      refine hnothing.congr (iff_of_false id (Walk.not_blocked_of_behind ?_))
      show sheets.length ≤ w.result + 1
      omega

theorem Tracks.skipAll_strikes (he : e.Undisturbed) (h : Tracks e sheets c w) :
    Struck row e (w.Blocked sheets row) (fun _ _ => True) skipAll c := by
  have hbound : sheets.length < c.outcomes.length + 1 + w.result := by
    rw [h.results.length_eq]
    omega
  have hskip : Struck row e _ _ _ c := h.skip_strikes he hbound
  exact ⟨hskip.succeeds, hskip.stops, hskip.passes⟩

/-- If there is a current row and it has columns, there is a first value. -/
theorem Tracks.value_zero (he : e.Undisturbed) (h : Tracks e sheets c w) {values : List Value}
    (hrow : w.row? sheets = some values) (hfields : c.fields ≠ []) : ∃ v, c.value e 0 = .ok v := by
  have hlength := (h.row.2 values hrow).2
  have hpos : 0 < values.length := hlength ▸ List.length_pos_iff.mpr hfields
  refine ⟨values[0], ?_⟩
  rw [h.value he, Walk.value, hrow]
  dsimp only
  rw [List.getElem?_eq_getElem hpos]

/-- The first value is had of the first result, whose first row is there when it is read. -/
theorem Tracks.firstValue_strikes (he : e.Undisturbed) (h : Tracks e sheets c {}) :
    Struck row e (Walk.nextFetch? sheets {} = some row)
      (fun _ c' => ∃ r, Tracks e sheets c' ⟨1, r⟩) firstValue c := by
  refine (h.nextResult_strikes he).bind_free fun more c₁ hnext => ?_
  obtain ⟨-, htracks⟩ := hnext
  rw [Walk.nextResult_first] at htracks
  cases more with
  | false => exact struck_of_unaware rfl rfl ⟨0, htracks⟩
  | true =>
    have hthere : Walk.readFetch? sheets ⟨1, 0⟩ ≠ some row := by
      rw [Walk.readFetch?_zero]
      nofun
    refine ((htracks.read_strikes he).congr (iff_of_false hthere id)).bind_free fun more c₂ hread => ?_
    obtain ⟨hmore, htracks⟩ := hread
    have hresult : (Walk.read sheets ⟨1, 0⟩).2.result = 1 := Walk.read_result _
    have hrow : (Walk.read sheets ⟨1, 0⟩).1 = true → ∃ values, _ = some values := Walk.row?_of_read
    generalize Walk.read sheets ⟨1, 0⟩ = moved at hmore htracks hresult hrow
    obtain ⟨more', result, r⟩ := moved
    obtain rfl : result = 1 := hresult
    obtain rfl : more = more' := hmore
    cases more with
    | false => exact struck_of_unaware rfl rfl ⟨r, htracks⟩
    | true =>
      obtain ⟨values, hvalues⟩ := hrow rfl
      have hvalue : ∃ first, (if c₂.fields.isEmpty then pure none
          else return some (← ofExcept (c₂.value e 0)) : CursorM (Option Value)) c₂ =
            .ok first c₂ := by
        by_cases hfields : c₂.fields.isEmpty = true
        · exact ⟨none, by rw [if_pos hfields]; rfl⟩
        · obtain ⟨v, hv⟩ := htracks.value_zero he hvalues (by simpa using hfields)
          exact ⟨some v, by rw [if_neg hfields, hv]; rfl⟩
      obtain ⟨first, hfirst⟩ := hvalue
      exact struck_of_unaware (a := first) hfirst rfl ⟨r, htracks⟩

/-- The walk of a command that is executed for its first value. -/
theorem Tracks.scalar_strikes (he : e.Undisturbed) (h : Tracks e sheets c {}) :
    Struck row e (Walk.Blocked sheets row {}) (fun _ _ => True) (fun e => do
      let first ← firstValue e
      skipAll e
      return first) c := by
  refine ((h.firstValue_strikes he).bind fun first c' hfirst => ?_).congr (Walk.blocked_iff 0).symm
  obtain ⟨r, htracks⟩ := hfirst
  exact (htracks.skipAll_strikes he).bind_free fun _ _ _ => struck_of_unaware rfl rfl trivial

/-- The walk of a command that is executed for the number of rows that it changes. -/
theorem Tracks.nonQuery_strikes (he : e.Undisturbed) (h : Tracks e sheets c {}) :
    Struck row e (Walk.Blocked sheets row {}) (fun _ _ => True) (fun e => do
      skipAll e
      return (← get).affected) c :=
  (h.skipAll_strikes he).bind_free fun _ _ _ => struck_of_unaware rfl rfl trivial

end Cursor
end SqlSession
