import SqlSession.Cursor.Lifetime
import SqlSession.Proofs.Cursor.Moves

/-!
# Whether a cursor has a current row

A cursor comes to a row only by a `read` that says so.  Every other move, a failed one too, leaves it
without a current row.  Then nothing can be learnt of the values in its columns.

What a move can do is said once, by `NextResult` and `Read`, and the rest is read off from these.
-/

namespace SqlSession
namespace Cursor

open Effect

variable {e : Engine} {c c' : Cursor}

/-! ## The ways in which a cursor can move -/

theorem rowCount_of_source {t : TableHandle} {count : Nat} (h : c.source? = some (t, count)) :
    c.rowCount = count := by rw [rowCount, h]

/-- A row that there is comes from somewhere. -/
theorem exists_source {i : Nat} (h : i < c.rowCount) : ∃ t, c.source? = some (t, c.rowCount) := by
  rcases hsource : c.source? with _ | ⟨t, count⟩
  · rw [rowCount, hsource] at h
    exact absurd h (Nat.not_lt_zero _)
  · exact ⟨t, congrArg some (congrArg (Prod.mk t) (rowCount_of_source hsource).symm)⟩

/-- What comes of the question for the next result. -/
inductive NextResult (e : Engine) (c : Cursor) : EStateM.Result Error Cursor Bool → Prop
  | idle (stuck : ¬ c.Live) : NextResult e c (.ok false c)
  | exhausted (live : c.Live) (behind : c.outcomes[c.nextPosition]? = none) :
      NextResult e c (.ok false c.exhaust)
  | empty (live : c.Live) {o : Outcome} (outcome : c.outcomes[c.nextPosition]? = some o)
      (rows : (c.enter e c.nextPosition o).rowCount = 0) :
      NextResult e c (.ok true (c.enter e c.nextPosition o))
  | fetched (live : c.Live) {o : Outcome} (outcome : c.outcomes[c.nextPosition]? = some o)
      {t : TableHandle} {n : Nat}
      (source : (c.enter e c.nextPosition o).source? = some (t, n + 1)) {b : RowBuffer}
      (row : e.fetchRow 0 t (c.enter e c.nextPosition o).buffer = .ok b) :
      NextResult e c (.ok true
        { c.enter e c.nextPosition o with buffer := b, nextRow := 1, pending := true })
  | failed (live : c.Live) {o : Outcome} (outcome : c.outcomes[c.nextPosition]? = some o)
      {t : TableHandle} {n : Nat}
      (source : (c.enter e c.nextPosition o).source? = some (t, n + 1)) {err : Error}
      (row : e.fetchRow 0 t (c.enter e c.nextPosition o).buffer = .error err) :
      NextResult e c (.error err { c.enter e c.nextPosition o with stage := .consumed })

theorem nextResult_cases (e : Engine) (c : Cursor) : NextResult e c (nextResult e c) := by
  by_cases hlive : c.Live
  · cases ho : c.outcomes[c.nextPosition]? with
    | none =>
      rw [nextResult_of_none hlive ho]
      exact .exhausted hlive ho
    | some o =>
      rcases hsource : (c.enter e c.nextPosition o).source? with _ | ⟨t, _ | n⟩
      · have hrows : (c.enter e c.nextPosition o).rowCount = 0 := by rw [rowCount, hsource]
        rw [nextResult_of_empty hlive ho hrows]
        exact .empty hlive ho hrows
      · have hrows : (c.enter e c.nextPosition o).rowCount = 0 := by rw [rowCount, hsource]
        rw [nextResult_of_empty hlive ho hrows]
        exact .empty hlive ho hrows
      · cases hrow : e.fetchRow 0 t (c.enter e c.nextPosition o).buffer with
        | ok b =>
          have hfetch : fetch e t 0 (c.enter e c.nextPosition o) =
              .ok () { c.enter e c.nextPosition o with buffer := b } := by rw [fetch, hrow]
          rw [nextResult_of_rows hlive ho hsource hfetch]
          exact .fetched hlive ho hsource hrow
        | error err =>
          have hfetch : fetch e t 0 (c.enter e c.nextPosition o) =
              .error err { c.enter e c.nextPosition o with stage := .consumed } := by
            rw [fetch, hrow]
            rfl
          rw [nextResult_of_failed hlive ho hsource hfetch]
          exact .failed hlive ho hsource hrow
  · rw [nextResult_of_stuck hlive]
    exact .idle hlive

/-- What comes of the question for the next row. -/
inductive Read (e : Engine) (c : Cursor) : EStateM.Result Error Cursor Bool → Prop
  | idle (stage : c.stage ≠ .beforeResult ∧ c.stage ≠ .inResult) : Read e c (.ok false c)
  | first (stage : c.stage = .beforeResult) :
      Read e c (.ok c.pending { c with stage := .inResult, onRow := c.pending, pending := false })
  | fetched (stage : c.stage = .inResult) {t : TableHandle} {count : Nat}
      (source : c.source? = some (t, count)) (more : c.nextRow < count) {b : RowBuffer}
      (row : e.fetchRow c.nextRow t c.buffer = .ok b) :
      Read e c (.ok true { c with buffer := b, nextRow := c.nextRow + 1, onRow := true })
  | failed (stage : c.stage = .inResult) {t : TableHandle} {count : Nat}
      (source : c.source? = some (t, count)) (more : c.nextRow < count) {err : Error}
      (row : e.fetchRow c.nextRow t c.buffer = .error err) :
      Read e c (.error err { c with stage := .consumed, onRow := false })
  | ended (stage : c.stage = .inResult) (behind : c.rowCount ≤ c.nextRow) :
      Read e c (.ok false { c with onRow := false })

theorem read_cases (e : Engine) (c : Cursor) : Read e c (read e c) := by
  by_cases hfirst : c.stage = .beforeResult
  · rw [read_of_beforeResult hfirst]
    exact .first hfirst
  by_cases hs : c.stage = .inResult
  · by_cases hmore : c.nextRow < c.rowCount
    · obtain ⟨t, hsource⟩ := exists_source hmore
      cases hrow : e.fetchRow c.nextRow t c.buffer with
      | ok b =>
        have hfetch : fetch e t c.nextRow c = .ok () { c with buffer := b } := by rw [fetch, hrow]
        rw [read_of_row hs hsource hmore hfetch]
        exact .fetched hs hsource hmore hrow
      | error err =>
        have hfetch : fetch e t c.nextRow c =
            .error err { c with stage := .consumed, onRow := false } := by rw [fetch, hrow]
        rw [read_of_failed hs hsource hmore hfetch]
        exact .failed hs hsource hmore hrow
    · have hend := Nat.le_of_not_lt hmore
      rw [read_of_end hs hend]
      exact .ended hs hend
  · rw [read_of_stuck ⟨hfirst, hs⟩]
    exact .idle ⟨hfirst, hs⟩

/-! ## Current rows -/

/-- The flags of a cursor go with its stage, and only rows of a table are current. -/
structure Seated (c : Cursor) : Prop where
  onRow : c.onRow = true → c.stage = .inResult ∧ c.source?.isSome
  pending : c.pending = true → c.stage = .beforeResult ∧ c.source?.isSome

/-- The cursor has come to a row or has left every row. -/
structure Seats (onRow : Bool) (c : Cursor) : Prop where
  seated : c.Seated
  onRow_eq : c.onRow = onRow

theorem seats_of_none (honRow : c.onRow = false) (hpending : c.pending = false) : c.Seats false where
  seated := ⟨fun h => absurd (honRow.symm.trans h) nofun, fun h => absurd (hpending.symm.trans h) nofun⟩
  onRow_eq := honRow

/-- A cursor that looks for another result leaves every row. -/
theorem nextResult_seats (h : c.Seated) : Ends (Seats false) (fun _ => True) (nextResult e c) := by
  have hmove := nextResult_cases e c
  generalize nextResult e c = result at hmove ⊢
  cases hmove with
  | idle stuck =>
    have honRow : ¬ c.onRow = true := fun hrow => stuck (.inr (.inr (h.onRow hrow).1))
    have hpending : ¬ c.pending = true := fun hp => stuck (.inr (.inl (h.pending hp).1))
    exact seats_of_none (Bool.eq_false_iff.mpr honRow) (Bool.eq_false_iff.mpr hpending)
  | exhausted => exact seats_of_none rfl rfl
  | empty => exact seats_of_none rfl rfl
  | fetched live outcome source row =>
    exact ⟨⟨nofun, fun _ => ⟨rfl, Option.isSome_of_eq_some source⟩⟩, rfl⟩
  | failed => exact ⟨seats_of_none rfl rfl, trivial⟩

/-- A cursor that is asked for another row comes to the row that it tells of. -/
theorem read_seats (h : c.Seated) :
    match read e c with
    | .ok onRow c' => c'.Seats onRow
    | .error _ c' => c'.Seats false := by
  have hpending : c.stage ≠ .beforeResult → c.pending = false := fun hstage =>
    Bool.eq_false_iff.mpr fun hp => hstage (h.pending hp).1
  have hmove := read_cases e c
  generalize read e c = result at hmove ⊢
  cases hmove with
  | idle stage =>
    have honRow : ¬ c.onRow = true := fun hrow => stage.2 (h.onRow hrow).1
    exact seats_of_none (Bool.eq_false_iff.mpr honRow) (hpending stage.1)
  | first stage => exact ⟨⟨fun hp => ⟨rfl, (h.pending hp).2⟩, nofun⟩, rfl⟩
  | fetched stage source more row =>
    have hnone := hpending (by rw [stage]; nofun)
    exact ⟨⟨fun _ => ⟨stage, Option.isSome_of_eq_some source⟩,
      fun hp => absurd (hnone.symm.trans hp) nofun⟩, rfl⟩
  | failed stage source more row => exact seats_of_none rfl (hpending (by rw [stage]; nofun))
  | ended stage behind => exact seats_of_none rfl (hpending (by rw [stage]; nofun))

/-- A cursor that has ended has no current row. -/
theorem finish_seats (h : c.Seated) (disposing : Bool) (conn : Connection) :
    Seats false (c.finish disposing conn).1 := by
  unfold finish
  by_cases hclosed : c.isClosed = true
  · have honRow : ¬ c.onRow = true := fun hrow => by
      rw [isClosed, (h.onRow hrow).1] at hclosed
      exact absurd hclosed nofun
    have hpending : ¬ c.pending = true := fun hp => by
      rw [isClosed, (h.pending hp).1] at hclosed
      exact absurd hclosed nofun
    rw [if_pos hclosed]
    cases disposing <;>
      exact seats_of_none (Bool.eq_false_iff.mpr honRow) (Bool.eq_false_iff.mpr hpending)
  · rw [if_neg hclosed]
    exact seats_of_none rfl rfl

/-! ## Reading a result to its end -/

/-- How many rows of the current result have not been read. -/
def rowsLeft (c : Cursor) : Nat := (if c.pending then 1 else 0) + (c.rowCount - c.nextRow)

theorem rowsLeft_of_nextResult (h : nextResult e c = .ok true c') : c'.rowsLeft ≤ c'.rowCount := by
  have hmove := nextResult_cases e c
  rw [h] at hmove
  cases hmove with
  | empty => exact Nat.le_of_eq (Nat.zero_add _)
  | @fetched _ o _ t n source =>
    have hcount := rowCount_of_source source
    show 1 + ((c.enter e c.nextPosition o).rowCount - 1) ≤ (c.enter e c.nextPosition o).rowCount
    omega

theorem rowsLeft_of_read (h : read e c = .ok true c') : c'.rowsLeft < c.rowsLeft := by
  have hmove := read_cases e c
  generalize read e c = result at hmove h
  cases hmove with
  | idle => cases h
  | failed => cases h
  | ended => cases h
  | first stage =>
    obtain ⟨hpending, rfl⟩ := EStateM.Result.ok.inj h
    show 0 + (c.rowCount - c.nextRow) < c.rowsLeft
    rw [rowsLeft, hpending, if_pos rfl]
    omega
  | fetched stage source more =>
    cases h
    have hcount := rowCount_of_source source
    show (if c.pending then 1 else 0) + (c.rowCount - (c.nextRow + 1)) < c.rowsLeft
    rw [rowsLeft]
    omega

theorem readRows_seats {bound : Nat} (h : c.Seated) (hbound : c.rowsLeft < bound) :
    Seats false (readRows e bound c).2.2 := by
  induction bound generalizing c with
  | zero => exact absurd hbound (Nat.not_lt_zero _)
  | succ bound ih =>
    have hmove := @read_seats e c h
    unfold readRows
    cases hread : read e c with
    | error err c' =>
      rw [hread] at hmove
      exact hmove
    | ok row c' =>
      rw [hread] at hmove
      cases row with
      | false => exact hmove
      | true =>
        have hless := rowsLeft_of_read hread
        exact ih hmove.seated (by omega)

theorem readResults_seats {bound : Nat} (h : c.Seated) (hstart : bound ≠ 0 ∨ c.onRow = false) :
    Seats false (readResults e bound c).2.2 := by
  induction bound generalizing c with
  | zero => exact ⟨h, hstart.resolve_left fun hne => hne rfl⟩
  | succ bound ih =>
    have hmove := @nextResult_seats e c h
    unfold readResults
    cases hnext : nextResult e c with
    | error err c' =>
      rw [hnext] at hmove
      exact hmove.1
    | ok result c' =>
      rw [hnext] at hmove
      cases result with
      | false => exact hmove
      | true =>
        have hrows : Seats false (readRows e (c'.rowCount + 1) c').2.2 :=
          readRows_seats hmove.seated (Nat.lt_succ_of_le (rowsLeft_of_nextResult hnext))
        dsimp only
        split
        · exact hrows
        · exact ih hrows.seated (.inr hrows.onRow_eq)

theorem drain_seats (h : c.Seated) : Seats false (c.drain e).2.2 :=
  readResults_seats h (.inl (Nat.succ_ne_zero _))

/-! ## Looks at a row -/

/-- Why nothing can be learnt of a row. -/
def noRow (c : Cursor) : StateFault := if c.isClosed then .cursorClosed else .noRow

theorem rowField_of_noRow (h : c.onRow = false) (i : Nat) : c.rowField i = .error (.state c.noRow) := by
  unfold rowField checkOpen noRow
  rw [h]
  cases c.isClosed <;> rfl

theorem value_of_noRow (h : c.onRow = false) (e : Engine) (i : Nat) :
    c.value e i = .error (.state c.noRow) := value_of_error (rowField_of_noRow h i)

/-- All values together are asked for one by one, so that it takes a column to find out that there is
no row. -/
theorem values_of_noRow (h : c.onRow = false) (e : Engine) (hcolumns : c.fields ≠ []) :
    c.values e = .error (.state c.noRow) := by
  unfold values
  obtain ⟨f, fs, hfields⟩ := List.exists_cons_of_ne_nil hcolumns
  rw [hfields, List.length_cons, List.range_succ_eq_map, List.mapM_cons, value_of_noRow h]
  rfl

end Cursor
end SqlSession
