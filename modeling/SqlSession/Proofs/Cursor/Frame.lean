import SqlSession.Cursor.Basic
import SqlSession.Proofs.Effect

/-!
# What a cursor keeps

A cursor moves over its results and rows.  Its outcomes, the behavior that was asked for, whether it
owns the binding of its connection and whether it has ended stay as they are (`Cursor.Frame`).  A move
can fail, but only with an error about the state of the cursor or about a place that is not there.
-/

namespace SqlSession

inductive Error.OfCursor : Error → Prop
  | state (fault : StateFault) : OfCursor (.state fault)
  | range (fault : RangeFault) : OfCursor (.range fault)

namespace Cursor

open Effect

/-- The part of a cursor that no move changes. -/
structure Frame where
  outcomes : List Outcome
  behavior : Behavior
  ownsBinding : Bool
  isClosed : Bool

def frame (c : Cursor) : Frame := ⟨c.outcomes, c.behavior, c.ownsBinding, c.isClosed⟩

variable {e : Engine} {c : Cursor} {err : Error}

/-- From this cursor on the work keeps the frame, and fails with no other errors than those of a
cursor. -/
def KeepsFrom {α : Type} (c : Cursor) (work : CursorM α) : Prop :=
  Ends (fun c' => c'.frame = c.frame) Error.OfCursor (work c)

def Keeps {α : Type} (work : CursorM α) : Prop := Effect.Keeps frame Error.OfCursor work

/-! ## Moves -/

theorem fetchRow_ofCursor {index : Nat} {t : TableHandle} {b : RowBuffer}
    (h : e.fetchRow index t b = .error err) : err.OfCursor := by
  unfold Engine.fetchRow at h
  split at h
  · cases h
    exact .state _
  · split at h
    · cases h
    · cases h
      exact .range _

/-- An open cursor stays open when it fetches a row, also if that fails. -/
theorem fetch_keepsFrom (hopen : c.isClosed = false) (t : TableHandle) (index : Nat) :
    KeepsFrom c (fetch e t index) := by
  unfold KeepsFrom fetch
  cases h : e.fetchRow index t c.buffer with
  | ok buffer => exact rfl
  | error err => exact ⟨by simp only [frame, hopen]; rfl, fetchRow_ofCursor h⟩

/-- A cursor that fetches a row and then moves on to it keeps its frame. -/
theorem fetch_then_keepsFrom (hopen : c.isClosed = false) (t : TableHandle) (index : Nat)
    {move : Cursor → Cursor} (hmove : ∀ c, (move c).frame = c.frame) :
    KeepsFrom c (do
      fetch e t index
      modify move
      return true) :=
  (fetch_keepsFrom hopen t index).bind fun _ c' hc' => (hmove c').trans hc'

/-- A cursor goes on to the result at a position, or behind the last one. -/
def goTo (e : Engine) (c : Cursor) (position : Nat) : CursorM Bool :=
  match c.outcomes[position]? with
  | none => do
    set c.exhaust
    return false
  | some o => do
    set (c.enter e position o)
    match (c.enter e position o).source? with
    | some (t, _ + 1) =>
      fetch e t 0
      modify fun c => { c with nextRow := 1, pending := true }
      return true
    | _ => return true

/-- An open cursor stays open when it goes to a result, or behind the last one. -/
theorem goTo_keepsFrom (hopen : c.isClosed = false) (e : Engine) (position : Nat) :
    KeepsFrom c (goTo e c position) := by
  have hframe : ∀ c' : Cursor, c'.outcomes = c.outcomes → c'.behavior = c.behavior →
      c'.ownsBinding = c.ownsBinding → c'.isClosed = false → c'.frame = c.frame := by
    intro c' houtcomes hbehavior howns hclosed
    rw [frame, frame, houtcomes, hbehavior, howns, hclosed, hopen]
  unfold goTo
  cases c.outcomes[position]? with
  | none => exact hframe c.exhaust rfl rfl rfl rfl
  | some o =>
    have henter := hframe (c.enter e position o) rfl rfl rfl rfl
    rw [KeepsFrom, ← henter]
    dsimp only
    rcases (c.enter e position o).source? with _ | ⟨t, _ | n⟩
    · exact rfl
    · exact rfl
    · exact fetch_then_keepsFrom rfl t 0 fun _ => rfl

theorem nextResult_keeps (e : Engine) : Keeps (nextResult e) := by
  intro c
  unfold nextResult
  rw [bind_apply, get_apply]
  cases hs : c.stage <;> simp only [hs]
  case closed | disposed | consumed => exact rfl
  all_goals exact goTo_keepsFrom (by rw [isClosed, hs]; rfl) e _

theorem read_keeps (e : Engine) : Keeps (read e) := by
  intro c
  unfold read
  rw [bind_apply, get_apply]
  cases hs : c.stage <;> simp only [hs]
  case betweenResults | consumed | closed | disposed => exact rfl
  case beforeResult =>
    rw [bind_apply, set_apply]
    simp only [frame, isClosed, hs]
    rfl
  case inResult =>
    have hopen : c.isClosed = false := by rw [isClosed, hs]; rfl
    have hstays : ({ c with stage := .inResult, onRow := false } : Cursor).frame = c.frame := by
      simp only [frame, hopen]
      rfl
    rcases c.source? with _ | ⟨t, count⟩
    · exact hstays
    · dsimp only
      by_cases hrow : c.nextRow < count
      · rw [if_pos hrow]
        exact fetch_then_keepsFrom hopen t _ fun _ => rfl
      · rw [if_neg hrow]
        exact hstays

/-! ## Values of the current row -/

theorem checkOpen_ofCursor (h : c.checkOpen = .error err) : err.OfCursor := by
  unfold checkOpen at h
  split at h
  · cases h
    exact .state _
  · cases h

theorem field_ofCursor {i : Nat} (h : c.field i = .error err) : err.OfCursor := by
  obtain h | ⟨-, -, h⟩ := check_bind_eq_error.mp h
  · exact checkOpen_ofCursor h
  · split at h
    · cases h
    · cases h
      exact .range _

theorem rowField_ofCursor {i : Nat} (h : c.rowField i = .error err) : err.OfCursor := by
  obtain h | ⟨-, -, h⟩ := check_bind_eq_error.mp h
  · exact checkOpen_ofCursor h
  · split at h
    · exact field_ofCursor h
    · cases h
      exact .state _

theorem decode_ofCursor {d : Datum} {type : Oid} (h : e.decode d type = .error err) :
    err.OfCursor := by
  unfold Engine.decode at h
  split at h
  · cases h
    exact .state _
  · split at h
    · cases h
    · cases h
      exact .state _

theorem value_ofCursor {i : Nat} (h : c.value e i = .error err) : err.OfCursor := by
  obtain h | ⟨f, -, h⟩ := check_bind_eq_error.mp h
  · exact rowField_ofCursor h
  · split at h
    · exact decode_ofCursor h
    · cases h

/-! ## Walks over all results -/

theorem skip_keeps (e : Engine) (bound : Nat) : Keeps (skip e bound) := by
  induction bound with
  | zero => exact Effect.keeps_pure ()
  | succ bound ih =>
    refine (nextResult_keeps e).bind fun more => ?_
    cases more with
    | true => exact ih
    | false => exact Effect.keeps_pure ()

theorem skipAll_keeps (e : Engine) : Keeps (skipAll e) := fun c =>
  skip_keeps e (c.outcomes.length + 1) c

theorem firstValue_keeps (e : Engine) : Keeps (firstValue e) := by
  refine (nextResult_keeps e).bind fun result => ?_
  cases result with
  | false => exact Effect.keeps_pure none
  | true =>
    refine (read_keeps e).bind fun row => ?_
    cases row with
    | false => exact Effect.keeps_pure none
    | true =>
      intro c
      show KeepsFrom c (if c.fields.isEmpty then _ else _)
      split
      · exact rfl
      · exact (keeps_ofExcept fun _ h => value_ofCursor h).bind (fun v => keeps_pure (some v)) c

theorem readRows_frame (e : Engine) (bound : Nat) (c : Cursor) :
    (readRows e bound c).2.2.frame = c.frame := by
  induction bound generalizing c with
  | zero => rfl
  | succ bound ih =>
    have hread := read_keeps e c
    unfold readRows
    cases h : read e c with
    | error err c' => exact (hread.of_error h).1
    | ok row c' =>
      cases row with
      | true => exact (ih c').trans (hread.of_ok h)
      | false => exact hread.of_ok h

theorem readResults_frame (e : Engine) (bound : Nat) (c : Cursor) :
    (readResults e bound c).2.2.frame = c.frame := by
  induction bound generalizing c with
  | zero => rfl
  | succ bound ih =>
    have hnext := nextResult_keeps e c
    unfold readResults
    cases h : nextResult e c with
    | error err c' => exact (hnext.of_error h).1
    | ok result c' =>
      cases result with
      | false => exact hnext.of_ok h
      | true =>
        have hrows := (readRows_frame e (c'.rowCount + 1) c').trans (hnext.of_ok h)
        dsimp only
        split
        · exact hrows
        · exact (ih _).trans hrows

theorem drain_frame (e : Engine) (c : Cursor) : (c.drain e).2.2.frame = c.frame :=
  readResults_frame e _ c

theorem readRows_ofCursor {bound : Nat} (h : (readRows e bound c).2.1 = some err) :
    err.OfCursor := by
  induction bound generalizing c with
  | zero => cases h
  | succ bound ih =>
    have hread := read_keeps e c
    unfold readRows at h
    cases hrow : read e c with
    | error err' c' =>
      rw [hrow] at h
      cases h
      exact (hread.of_error hrow).2
    | ok row c' =>
      rw [hrow] at h
      cases row with
      | true => exact ih h
      | false => cases h

/-- What stops a walk over everything is an error of a cursor. -/
theorem readResults_ofCursor {bound : Nat} (h : (readResults e bound c).2.1 = some err) :
    err.OfCursor := by
  induction bound generalizing c with
  | zero => cases h
  | succ bound ih =>
    have hnext := nextResult_keeps e c
    unfold readResults at h
    cases hresult : nextResult e c with
    | error err' c' =>
      rw [hresult] at h
      cases h
      exact (hnext.of_error hresult).2
    | ok result c' =>
      rw [hresult] at h
      cases result with
      | false => cases h
      | true =>
        dsimp only at h
        split at h
        · next hrows =>
          cases h
          exact readRows_ofCursor hrows
        · exact ih h

end Cursor
end SqlSession
