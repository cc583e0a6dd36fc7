import Mathlib.Algebra.GroupWithZero.Nat
import SqlSession.Proofs.Cursor.CurrentRow
import SqlSession.Proofs.Cursor.Refinement

/-!
# How many rows have been changed

A cursor counts the rows that were changed by the statements whose results it has come to.  The count
goes with these results only: `Entered n c c'` says that the cursor has come to `n` more of them, and
every move comes to one more or to none.

A command that is executed for its number of rows or for its first value goes over all results.  `Skips`
is this loop with the number of its rounds.
-/

namespace SqlSession

namespace Outcome

variable {outcomes : List Outcome}

/-- The number is minus one if all of the outcomes have tables.  Otherwise it is how many rows the
other ones have processed together, up to the largest number of 64 bits with a sign. -/
structure Tallied (outcomes : List Outcome) (n : Int) : Prop where
  eq_neg_one_iff : n = -1 ↔ ∀ o ∈ outcomes, o.table.isSome
  eq_sum : n ≠ -1 →
    n = min (((outcomes.filter (·.table.isNone)).map Outcome.processed).sum : Int)
      Int64.maxValue.toInt

theorem changes_eq_nil_iff : changes outcomes = [] ↔ ∀ o ∈ outcomes, o.table.isSome := by
  simp [changes, Option.isSome_iff_ne_none]

theorem affected_of_nil (h : changes outcomes = []) : affected outcomes = -1 := by
  simp only [affected, h]

theorem affected_of_ne_nil (h : changes outcomes ≠ []) :
    affected outcomes = (min (changes outcomes).sum largestCount : Nat) := by
  rw [List.sum_eq_foldr]
  unfold affected
  split
  · next hnil => exact absurd hnil h
  · rfl

theorem neg_one_le_affected (outcomes : List Outcome) : -1 ≤ affected outcomes := by
  unfold affected
  split <;> omega

theorem tallied_affected (outcomes : List Outcome) : Tallied outcomes (affected outcomes) := by
  by_cases hnil : changes outcomes = []
  · rw [affected_of_nil hnil]
    exact ⟨iff_of_true rfl (changes_eq_nil_iff.mp hnil), fun hne => absurd rfl hne⟩
  · rw [affected_of_ne_nil hnil]
    refine ⟨iff_of_false (by omega) (mt changes_eq_nil_iff.mpr hnil), fun _ => ?_⟩
    have hlargest : Int64.maxValue.toInt = largestCount := by decide
    rw [changes, hlargest]
    omega

/-- More outcomes never make the number smaller. -/
theorem affected_le_append (xs ys : List Outcome) : affected xs ≤ affected (xs ++ ys) := by
  by_cases hxs : changes xs = []
  · rw [affected_of_nil hxs]
    exact neg_one_le_affected _
  · have hall : changes (xs ++ ys) ≠ [] := by
      rw [changes_append]
      exact List.append_ne_nil_of_left_ne_nil hxs _
    rw [affected_of_ne_nil hxs, affected_of_ne_nil hall, changes_append, List.sum_append]
    omega

end Outcome

namespace Cursor

variable {e : Engine} {sheets : List Sheet} {c c' c'' : Cursor} {w : Walk} {n m : Nat}

/-! ## Results that a cursor has come to -/

theorem visited_eq_take (c : Cursor) : c.visited = c.outcomes.take c.nextPosition := by
  unfold visited nextPosition
  cases c.position <;> rfl

theorem visited_eq_take_length (c : Cursor) : c.visited = c.outcomes.take c.visited.length := by
  rw [visited_eq_take, List.length_take, ← List.take_eq_take_min]

theorem tallied_of_visited {outcomes : List Outcome} (h : c.visited = outcomes) :
    Outcome.Tallied outcomes c.affected := by
  rw [Cursor.affected, h]
  exact Outcome.tallied_affected outcomes

/-- The cursor has come to `n` more results of the same outcomes. -/
structure Entered (n : Nat) (c c' : Cursor) : Prop where
  outcomes : c'.outcomes = c.outcomes
  visited : c'.visited.length = c.visited.length + n

theorem Entered.trans (h : Entered n c c') (h' : Entered m c' c'') : Entered (n + m) c c'' where
  outcomes := h'.outcomes.trans h.outcomes
  visited := by rw [h'.visited, h.visited, Nat.add_assoc]

theorem entered_of_same (houtcomes : c'.outcomes = c.outcomes) (hposition : c'.position = c.position) :
    Entered 0 c c' where
  outcomes := houtcomes
  visited := by rw [Cursor.visited, Cursor.visited, houtcomes, hposition, Nat.add_zero]

/-- The next result is one more. -/
theorem entered_of_next {o : Outcome} (ho : c.outcomes[c.nextPosition]? = some o)
    (houtcomes : c'.outcomes = c.outcomes) (hposition : c'.position = some c.nextPosition) :
    Entered 1 c c' where
  outcomes := houtcomes
  visited := by
    have hlt := (List.getElem?_eq_some_iff.mp ho).1
    rw [visited_eq_take, visited_eq_take, List.length_take, List.length_take, houtcomes]
    rw [show c'.nextPosition = c.nextPosition + 1 by simp only [nextPosition, hposition]]
    omega

/-- Behind the last result there is none more. -/
theorem entered_exhaust (h : c.outcomes[c.nextPosition]? = none) : Entered 0 c c.exhaust where
  outcomes := rfl
  visited := by
    have hle := List.getElem?_eq_none_iff.mp h
    have hposition : c.exhaust.nextPosition = c.outcomes.length + 1 := rfl
    have houtcomes : c.exhaust.outcomes = c.outcomes := rfl
    rw [visited_eq_take, visited_eq_take, List.length_take, List.length_take, hposition, houtcomes]
    omega

theorem Entered.visited_eq (h : Entered n c c') :
    c'.visited = c.outcomes.take (c.visited.length + n) := by
  rw [visited_eq_take_length, h.visited, h.outcomes]

/-- The number of rows does not become smaller, and stays the same without another result. -/
theorem Entered.affected (h : Entered n c c') :
    c.affected ≤ c'.affected ∧ (n = 0 → c'.affected = c.affected) := by
  obtain ⟨more, hmore⟩ : ∃ more, c'.visited = c.visited ++ more := by
    refine ⟨(c.outcomes.drop c.visited.length).take n, ?_⟩
    rw [h.visited_eq, List.take_add, ← visited_eq_take_length]
  constructor
  · rw [Cursor.affected, Cursor.affected, hmore]
    exact Outcome.affected_le_append _ _
  · rintro rfl
    rw [Cursor.affected, Cursor.affected, h.visited_eq, Nat.add_zero, ← visited_eq_take_length]

/-- A cursor that is asked for the next result comes to it, also if its first row cannot be fetched,
unless it says that there is none. -/
theorem nextResult_enters (e : Engine) (c : Cursor) :
    match nextResult e c with
    | .ok more c' => Entered more.toNat c c'
    | .error _ c' => Entered 1 c c' := by
  have hmove := nextResult_cases e c
  generalize nextResult e c = result at hmove ⊢
  cases hmove with
  | idle => exact entered_of_same rfl rfl
  | exhausted live behind => exact entered_exhaust behind
  | empty live outcome rows => exact entered_of_next outcome rfl rfl
  | fetched live outcome source row => exact entered_of_next outcome rfl rfl
  | failed live outcome source row => exact entered_of_next outcome rfl rfl

theorem read_enters (e : Engine) (c : Cursor) :
    Effect.Ends (Entered 0 c) (fun _ => True) (read e c) := by
  have hmove := read_cases e c
  generalize read e c = result at hmove ⊢
  cases hmove with
  | failed => exact ⟨entered_of_same rfl rfl, trivial⟩
  | idle | first | fetched | ended => exact entered_of_same rfl rfl

theorem finish_enters (c : Cursor) (disposing : Bool) (conn : Connection) :
    Entered 0 c (c.finish disposing conn).1 := by
  unfold finish
  by_cases hclosed : c.isClosed = true
  · rw [if_pos hclosed]
    cases disposing <;> exact entered_of_same rfl rfl
  · rw [if_neg hclosed]
    exact entered_of_same rfl rfl

/-! ## Going over all results -/

/-- Asking for the next result until there is none comes to `n` results and then to the cursor `c'`. -/
inductive Skips (e : Engine) : Nat → Cursor → Cursor → Prop
  | done {c c' : Cursor} (last : nextResult e c = .ok false c') : Skips e 0 c c'
  | more {n : Nat} {c c' c'' : Cursor} (next : nextResult e c = .ok true c')
      (rest : Skips e n c' c'') : Skips e (n + 1) c c''

/-- The loop ends within its bound. -/
theorem skip_of_skips (h : Skips e n c c') {bound : Nat} (hbound : n < bound) :
    skip e bound c = .ok () c' := by
  induction h generalizing bound with
  | done last =>
    obtain ⟨bound, rfl⟩ : ∃ fewer, bound = fewer + 1 := ⟨bound - 1, by omega⟩
    exact Effect.bind_eq_ok.mpr ⟨false, _, last, rfl⟩
  | more next rest ih =>
    obtain ⟨bound, rfl⟩ : ∃ fewer, bound = fewer + 1 := ⟨bound - 1, by omega⟩
    exact Effect.bind_eq_ok.mpr ⟨true, _, next, ih (by omega)⟩

theorem Skips.entered (h : Skips e n c c') : Entered n c c' := by
  induction h with
  | @done c c' last =>
    have hmove := nextResult_enters e c
    rw [last] at hmove
    exact hmove
  | @more n c c' c'' next rest ih =>
    have hmove := nextResult_enters e c
    rw [next] at hmove
    rw [Nat.add_comm]
    exact Entered.trans hmove ih

theorem Tracks.skips (he : e.Undisturbed) (h : Tracks e sheets c w) :
    ∃ c', Skips e (sheets.length - w.result) c c' ∧
      Tracks e sheets c' ⟨sheets.length + 1, 0⟩ := by
  generalize hn : sheets.length - w.result = n
  induction n generalizing c w with
  | zero =>
    obtain ⟨c', hnext, htracks⟩ := h.nextResult he
    rw [Walk.nextResult, if_neg (by omega)] at hnext htracks
    exact ⟨c', .done hnext, htracks⟩
  | succ n ih =>
    obtain ⟨c₁, hnext, htracks⟩ := h.nextResult he
    rw [Walk.nextResult, if_pos (by omega)] at hnext htracks
    obtain ⟨c', hskips, hend⟩ := ih htracks (by show sheets.length - (w.result + 1) = n; omega)
    exact ⟨c', .more hnext hskips, hend⟩

/-- A cursor has come to the results that its walk has come to. -/
theorem Tracks.visited_eq (h : Tracks e sheets c w) : c.visited = c.outcomes.take w.result := by
  unfold visited
  cases h.placed with
  | start _ hposition _ => simp only [hposition, List.take_zero]
  | before _ _ hposition _ _ _ _ => simp only [hposition]
  | within _ _ hposition _ _ _ _ => simp only [hposition]
  | behind _ hposition _ => simp only [hposition]

theorem Tracks.visited_of_behind (h : Tracks e sheets c ⟨sheets.length + 1, 0⟩) :
    c.visited = c.outcomes := by
  rw [h.visited_eq, h.results.length_eq]
  exact List.take_of_length_le (Nat.le_succ _)

/-- All results that are left are gone over, within the bound for it. -/
theorem Tracks.skipAll_eq_ok (he : e.Undisturbed) (h : Tracks e sheets c w) :
    ∃ c', Skips e (sheets.length - w.result) c c' ∧ c'.visited = c.outcomes ∧
      skipAll e c = .ok () c' := by
  obtain ⟨c', hskips, hend⟩ := h.skips he
  have hbound : sheets.length - w.result < c.outcomes.length + 1 := by
    rw [h.results.length_eq]
    omega
  refine ⟨c', hskips, ?_, skip_of_skips hskips hbound⟩
  rw [hend.visited_of_behind, hskips.entered.outcomes]

/-! ## The first value -/

/-- The first cell of the first row of the first result. -/
def firstCell? (sheets : List Sheet) : Option Value :=
  sheets.head?.bind fun sheet => sheet.rows.head?.bind List.head?

/-- On a current row the first column is looked at, if there is one. -/
theorem Tracks.firstColumn (he : e.Undisturbed) (h : Tracks e sheets c w) {row : List Value}
    (hrow : w.row? sheets = some row) :
    (if c.fields.isEmpty then pure none
      else return some (← ofExcept (c.value e 0)) : CursorM (Option Value)) c = .ok row.head? c := by
  have hlength := (h.row.2 row hrow).2
  cases row with
  | nil =>
    have hfields : c.fields = [] := List.length_eq_zero_iff.mp hlength.symm
    rw [hfields]
    rfl
  | cons v cells =>
    have hfields : ¬ c.fields.isEmpty = true := by
      rw [List.isEmpty_iff_length_eq_zero, ← hlength]
      exact Nat.succ_ne_zero _
    have hvalue : c.value e 0 = .ok v := by
      rw [h.value he]
      exact Walk.value_eq_ok.mpr ⟨v :: cells, hrow, rfl⟩
    rw [if_neg hfields, hvalue]
    rfl

theorem Tracks.firstValue_eq_ok (he : e.Undisturbed) (h : Tracks e sheets c {}) :
    ∃ c' r, firstValue e c = .ok (firstCell? sheets) c' ∧ Tracks e sheets c' ⟨1, r⟩ := by
  obtain ⟨c₁, hnext, htracks⟩ := h.nextResult he
  rw [Walk.nextResult_first] at htracks
  cases sheets with
  | nil => exact ⟨c₁, 0, Effect.bind_eq_ok.mpr ⟨false, c₁, hnext, rfl⟩, htracks⟩
  | cons sheet sheets =>
    obtain ⟨c₂, hread, htracks⟩ := htracks.read he
    have hsheet : (sheet :: sheets)[0]? = some sheet := rfl
    rw [Walk.read_of_sheet 0 hsheet] at hread htracks
    cases hrows : sheet.rows with
    | nil =>
      have hnone : firstCell? (sheet :: sheets) = none := by
        show sheet.rows.head?.bind List.head? = none
        rw [hrows]
        rfl
      rw [hrows] at hread htracks
      refine ⟨c₂, 1, ?_, htracks⟩
      rw [hnone]
      exact Effect.bind_eq_ok.mpr ⟨true, c₁, hnext,
        Effect.bind_eq_ok.mpr ⟨false, c₂, hread, rfl⟩⟩
    | cons row rows =>
      have hfirst : firstCell? (sheet :: sheets) = row.head? := by
        show sheet.rows.head?.bind List.head? = row.head?
        rw [hrows]
        rfl
      rw [hrows, List.length_cons, if_pos (Nat.zero_lt_succ _)] at hread htracks
      have hrow : Walk.row? (sheet :: sheets) ⟨1, 1⟩ = some row := by
        rw [Walk.row?_succ 0 hsheet, hrows]
        rfl
      refine ⟨c₂, 1, ?_, htracks⟩
      rw [hfirst]
      exact Effect.bind_eq_ok.mpr ⟨true, c₁, hnext,
        Effect.bind_eq_ok.mpr ⟨true, c₂, hread, htracks.firstColumn he hrow⟩⟩

end Cursor
end SqlSession
