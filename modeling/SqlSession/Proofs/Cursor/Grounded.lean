import SqlSession.Proofs.Command.Dispatch
import SqlSession.Proofs.Command.Opening
import SqlSession.Proofs.Engine.Agreement

/-!
# What a cursor stands on

A cursor has the handles of its tables, and its buffers have the handles of values.  As long as there is
something behind each of these handles (`Cursor.Grounded`), the cursor answers from an engine that has
done more since then as it answers from the engine that it began with, because an engine keeps what it
has handed out.
-/

namespace SqlSession

open Effect Engine

variable {e e' : Engine}

/-! ## Buffers -/

namespace RowBuffer

variable {b : RowBuffer}

/-- Every datum in the buffers has a value. -/
def Valued (e : Engine) (b : RowBuffer) : Prop := ∀ d ∈ b.datums, ∃ v, e.value? d = some v

theorem valued_iff_agree : b.Valued e ↔ b.Agree e e b := by
  have hself : ∀ d, Datum.Agree e e d d ↔ ∃ v, e.value? d = some v :=
    fun d => exists_congr fun v => and_self_iff
  constructor
  · intro h
    exact ⟨List.forall₂_same.mpr fun d hd => (hself d).mpr (h d hd), rfl⟩
  · intro h d hd
    exact (hself d).mp (List.forall₂_same.mp h.datums d hd)

theorem valued_blank (count : Nat) : (blank count).Valued e :=
  valued_iff_agree.mpr (agree_blank count)

theorem Valued.mono (h : Keeps e e') (hb : b.Valued e) : b.Valued e' := by
  intro d hd
  obtain ⟨v, hv⟩ := hb d hd
  exact ⟨v, h.value? hv⟩

theorem Valued.cell? (hb : b.Valued e) {i : Nat} {d : Datum} {null : Bool}
    (h : b.cell? i = some (d, null)) : ∃ v, e.value? d = some v := by
  obtain ⟨d', hd', h⟩ := Option.bind_eq_some_iff.mp h
  obtain ⟨null', -, h⟩ := Option.bind_eq_some_iff.mp h
  cases h
  exact hb d (List.mem_of_getElem? hd')

end RowBuffer

namespace Engine

variable {t : TableHandle} {columns : List Column} {rows : List (List Value)} {b b' : RowBuffer}

theorem Continues.fetchRow (h : Continues e e') (ht : e.Shows t columns rows) (index : Nat)
    (b : RowBuffer) : e'.fetchRow index t b = e.fetchRow index t b := by
  obtain ⟨cells, htable, -⟩ := ht
  unfold Engine.fetchRow
  rw [h.alike.faults, htable, h.keeps.tables _ _ htable]

theorem Continues.ofTable (h : Continues e e') (ht : e.Shows t columns rows) :
    Field.ofTable e' t = Field.ofTable e t := by
  have ht' := ht.mono h.keeps
  unfold Field.ofTable columnCount
  rw [describedColumns_of_shows h.alike ht ht', ht.columns_eq, ht'.columns_eq]

theorem Continues.decode (h : Continues e e') {d : Datum} (hd : ∃ v, e.value? d = some v)
    (type : Oid) : e'.decode d type = e.decode d type := by
  obtain ⟨v, hv⟩ := hd
  exact decode_of_agree h.alike ⟨v, hv, h.keeps.value? hv⟩ type

/-- A row that has been fetched brings values, and leaves the other ones as they were. -/
theorem valued_of_fetchRow (ht : e.Shows t columns rows) (hb : b.Valued e) {index : Nat}
    (hfetch : e.fetchRow index t b = .ok b') : b'.Valued e := by
  obtain ⟨all, htable, hall⟩ := ht
  unfold Engine.fetchRow at hfetch
  rw [htable, Option.bind_some] at hfetch
  split at hfetch
  · cases hfetch
  · split at hfetch
    · next cells hcells =>
      cases hfetch
      obtain ⟨row, -, hrow⟩ := getElem?_of_forall₂ hall hcells
      rw [RowBuffer.valued_iff_agree] at hb ⊢
      exact hb.overwrite hrow hrow
    · cases hfetch

end Engine

namespace Cursor

variable {c : Cursor}

/-- There is something behind every handle of the cursor. -/
structure Grounded (e : Engine) (c : Cursor) : Prop where
  tables : ∀ o ∈ c.outcomes, ∀ t, o.table = some t → ∃ columns rows, e.Shows t columns rows
  buffer : c.buffer.Valued e

theorem Grounded.mono (h : Engine.Keeps e e') (hc : c.Grounded e) : c.Grounded e' where
  tables o ho t ht := by
    obtain ⟨columns, rows, hshows⟩ := hc.tables o ho t ht
    exact ⟨columns, rows, hshows.mono h⟩
  buffer := hc.buffer.mono h

theorem Grounded.source? (hc : c.Grounded e) {t : TableHandle} {count : Nat}
    (h : c.source? = some (t, count)) : ∃ columns rows, e.Shows t columns rows := by
  unfold Cursor.source? at h
  split at h
  · cases h
  · obtain ⟨o, ho, h⟩ := Option.bind_eq_some_iff.mp h
    obtain ⟨i, -, hi⟩ := Option.bind_eq_some_iff.mp ho
    obtain ⟨t', ht', h⟩ := Option.map_eq_some_iff.mp h
    cases h
    exact hc.tables o (List.mem_of_getElem? hi) t ht'

theorem grounded_enter (hc : c.Grounded e) (position : Nat) (o : Outcome) :
    (c.enter e position o).Grounded e :=
  ⟨hc.tables, RowBuffer.valued_blank _⟩

theorem enter_of_continues (h : Continues e e') (hc : c.Grounded e) {o : Outcome}
    (ho : o ∈ c.outcomes) (position : Nat) : c.enter e' position o = c.enter e position o := by
  unfold enter
  cases htable : o.table with
  | none => rfl
  | some t =>
    obtain ⟨columns, rows, hshows⟩ := hc.tables o ho t htable
    dsimp only
    rw [h.ofTable hshows]

/-! ## Moves -/

/-- From this cursor on, the second work goes as the first one, and afterwards there is still something
behind every handle. -/
def SteadyFrom {α : Type} (e : Engine) (c : Cursor) (work work' : CursorM α) : Prop :=
  work' c = work c ∧ Ends (Grounded e) (fun _ => True) (work c)

section

variable {α β : Type}

theorem steadyFrom_self {work : CursorM α} (h : Ends (Grounded e) (fun _ => True) (work c)) :
    SteadyFrom e c work work := ⟨rfl, h⟩

theorem SteadyFrom.bind {work work' : CursorM α} {next next' : α → CursorM β}
    (h : SteadyFrom e c work work')
    (hnext : ∀ a c', c'.Grounded e → SteadyFrom e c' (next a) (next' a)) :
    SteadyFrom e c (work >>= next) (work' >>= next') := by
  obtain ⟨heq, hends⟩ := h
  refine ⟨?_, hends.bind fun a c' hc' => (hnext a c' hc').2⟩
  rw [bind_apply, bind_apply, heq]
  cases hwork : work c with
  | ok a c' => exact (hnext a c' (hends.of_ok hwork)).1
  | error err c' => rfl

end

theorem fetch_steadyFrom (h : Continues e e') (hc : c.Grounded e) {t : TableHandle}
    (ht : ∃ columns rows, e.Shows t columns rows) (index : Nat) :
    SteadyFrom e c (fetch e t index) (fetch e' t index) := by
  obtain ⟨columns, rows, hshows⟩ := ht
  unfold SteadyFrom fetch
  rw [h.fetchRow hshows]
  refine ⟨rfl, ?_⟩
  cases hfetch : e.fetchRow index t c.buffer with
  | ok buffer => exact ⟨hc.tables, valued_of_fetchRow hshows hc.buffer hfetch⟩
  | error err => exact ⟨⟨hc.tables, hc.buffer⟩, trivial⟩

/-- To fetch a row and to move on to it goes as it would have gone before. -/
theorem fetch_then_steadyFrom (h : Continues e e') (hc : c.Grounded e) {t : TableHandle} {count : Nat}
    (hsource : c.source? = some (t, count)) (index : Nat) {move : Cursor → Cursor}
    (hmove : ∀ c, c.Grounded e → (move c).Grounded e) :
    SteadyFrom e c
      (do
        fetch e t index
        modify move
        return true)
      (do
        fetch e' t index
        modify move
        return true) :=
  (fetch_steadyFrom h hc (hc.source? hsource) index).bind fun _ c' hc' =>
    steadyFrom_self (hmove c' hc')

theorem goTo_steadyFrom (h : Continues e e') (hc : c.Grounded e) (position : Nat) :
    SteadyFrom e c (goTo e c position) (goTo e' c position) := by
  unfold goTo
  cases ho : c.outcomes[position]? with
  | none => exact steadyFrom_self ⟨hc.tables, hc.buffer⟩
  | some o =>
    dsimp only
    rw [enter_of_continues h hc (List.mem_of_getElem? ho)]
    -- From here on the cursor is on the new result, wherever it has been before.
    have henter := grounded_enter hc position o
    generalize c.enter e position o = c' at henter
    suffices hrest : SteadyFrom e c' _ _ from hrest
    rcases hsource : c'.source? with _ | ⟨t, _ | n⟩
    · exact steadyFrom_self henter
    · exact steadyFrom_self henter
    · exact fetch_then_steadyFrom h henter hsource 0 fun _ hc => ⟨hc.tables, hc.buffer⟩

theorem nextResult_steadyFrom (h : Continues e e') (hc : c.Grounded e) :
    SteadyFrom e c (nextResult e) (nextResult e') := by
  unfold SteadyFrom nextResult
  rw [bind_apply, get_apply, bind_apply, get_apply]
  cases hs : c.stage <;> simp only [hs]
  case closed | disposed | consumed => exact ⟨trivial, hc⟩
  all_goals exact goTo_steadyFrom h hc _

theorem read_steadyFrom (h : Continues e e') (hc : c.Grounded e) :
    SteadyFrom e c (read e) (read e') := by
  have hstays : ∀ c' : Cursor, c'.outcomes = c.outcomes → c'.buffer = c.buffer → c'.Grounded e := by
    intro c' houtcomes hbuffer
    exact ⟨houtcomes ▸ hc.tables, hbuffer ▸ hc.buffer⟩
  unfold SteadyFrom read
  rw [bind_apply, get_apply, bind_apply, get_apply]
  cases hs : c.stage <;> simp only [hs]
  case betweenResults | consumed | closed | disposed => exact ⟨trivial, hc⟩
  case beforeResult => exact ⟨trivial, hstays _ rfl rfl⟩
  case inResult =>
    rcases hsource : c.source? with _ | ⟨t, count⟩
    · exact ⟨rfl, hstays _ rfl rfl⟩
    · dsimp only
      by_cases hrow : c.nextRow < count
      · rw [if_pos hrow, if_pos hrow]
        exact fetch_then_steadyFrom h hc hsource _ fun _ hc => ⟨hc.tables, hc.buffer⟩
      · rw [if_neg hrow, if_neg hrow]
        exact ⟨rfl, hstays _ rfl rfl⟩

/-! ## Values -/

theorem value_of_continues (h : Continues e e') (hc : c.Grounded e) : c.value e' = c.value e := by
  funext i
  unfold value
  cases c.rowField i with
  | error err => rfl
  | ok f =>
    rcases hcell : c.buffer.cell? i with _ | ⟨d, null⟩
    · rfl
    · cases null with
      | true => rfl
      | false => exact h.decode (hc.buffer.cell? hcell) f.type

theorem values_of_continues (h : Continues e e') (hc : c.Grounded e) : c.values e' = c.values e := by
  unfold values
  rw [value_of_continues h hc]

/-! ## Whole walks -/

theorem readRows_of_continues (h : Continues e e') (hc : c.Grounded e) (bound : Nat) :
    readRows e' bound c = readRows e bound c ∧ (readRows e bound c).2.2.Grounded e := by
  induction bound generalizing c with
  | zero => exact ⟨rfl, hc⟩
  | succ bound ih =>
    obtain ⟨heq, hends⟩ := read_steadyFrom h hc
    unfold readRows
    rw [heq]
    cases hread : read e c with
    | error err c' => exact ⟨rfl, (hends.of_error hread).1⟩
    | ok more c' =>
      have hc' := hends.of_ok hread
      cases more with
      | false => exact ⟨rfl, hc'⟩
      | true =>
        obtain ⟨hrest, hlast⟩ := ih hc'
        dsimp only
        rw [hrest, values_of_continues h hc']
        exact ⟨rfl, hlast⟩

theorem readResults_of_continues (h : Continues e e') (hc : c.Grounded e) (bound : Nat) :
    readResults e' bound c = readResults e bound c ∧ (readResults e bound c).2.2.Grounded e := by
  induction bound generalizing c with
  | zero => exact ⟨rfl, hc⟩
  | succ bound ih =>
    obtain ⟨heq, hends⟩ := nextResult_steadyFrom h hc
    unfold readResults
    rw [heq]
    cases hnext : nextResult e c with
    | error err c' => exact ⟨rfl, (hends.of_error hnext).1⟩
    | ok more c' =>
      have hc' := hends.of_ok hnext
      cases more with
      | false => exact ⟨rfl, hc'⟩
      | true =>
        obtain ⟨hrows, hread⟩ := readRows_of_continues h hc' (c'.rowCount + 1)
        dsimp only
        rw [hrows]
        generalize readRows e (c'.rowCount + 1) c' = result at hread
        obtain ⟨rows, failure, last⟩ := result
        cases failure with
        | some err => exact ⟨rfl, hread⟩
        | none =>
          obtain ⟨hrest, hlast⟩ := ih hread
          dsimp only
          rw [hrest]
          exact ⟨rfl, hlast⟩

theorem drain_of_continues (h : Continues e e') (hc : c.Grounded e) :
    c.drain e' = c.drain e ∧ (c.drain e).2.2.Grounded e :=
  readResults_of_continues h hc _

/-! ## The beginning and the end -/

theorem Grounded.finish (hc : c.Grounded e) (disposing : Bool) (connection : Connection) :
    (c.finish disposing connection).1.Grounded e := by
  unfold Cursor.finish
  split
  · cases disposing <;> exact ⟨hc.tables, hc.buffer⟩
  · exact ⟨hc.tables, hc.buffer⟩

end Cursor

theorem Engine.Answered.shows {r : Response} {o : Outcome} (h : e.Answered r o) {t : TableHandle}
    (ht : o.table = some t) : ∃ columns rows, e.Shows t columns rows := by
  cases h with
  | table hshows =>
    cases ht
    exact ⟨_, _, hshows⟩
  | command processed => cases ht

/-- There is something behind the handles of a cursor that has just been opened. -/
theorem Command.openCursor_grounded {command : Command} {c c' : Connection} {cursor : Cursor}
    (h : command.openCursor c = .ok cursor c') : cursor.Grounded c'.engine := by
  obtain ⟨-, statements, outcomes, e, -, hsend, rfl, rfl⟩ := openCursor_eq_ok h
  obtain ⟨-, -, hreports⟩ := PlannedStatement.sendAll_sent hsend
  refine ⟨?_, RowBuffer.valued_blank 0⟩
  intro o ho t ht
  obtain ⟨i, hi⟩ := List.mem_iff_getElem?.mp ho
  obtain ⟨s, -, own, hown, rfl⟩ := getElem?_of_forall₂ hreports.flip hi
  exact hown.shows ht

end SqlSession
