import SqlSession.Proofs.Command.Opening
import SqlSession.Proofs.Cursor.Affected
import SqlSession.Proofs.Cursor.Opened

/-!
# Commands that are executed for a number

A command that is executed for its number of rows or for its first value opens a cursor, goes over all
of its results and ends it.  What it tells is what the cursor has seen on the way.
-/

namespace SqlSession
namespace Command

variable {command : Command} {c c' : Connection} {cursor : Cursor} {results : List Sheet}
  {statements : List PlannedStatement} {v : Value}

/-- Nothing more is sent once a command is open. -/
theorem withCursor_engine {α : Type} {walk : Engine → CursorM α} (hwalk : ∀ e, Cursor.Keeps (walk e))
    (hopen : command.openCursor c = .ok cursor c') :
    Effect.Ends (fun c'' => c''.engine = c'.engine) Error.OfCursor (command.withCursor walk c) := by
  refine (withCursor_ends hwalk hopen).2.imp ?_ fun _ herr => herr
  rintro _ rfl
  rfl

theorem nonQuery_eq_ok (he : c'.engine.Undisturbed)
    (hopen : command.openCursor c = .ok cursor c')
    (htracks : Cursor.Tracks c'.engine results cursor {}) :
    ∃ last, Cursor.Skips c'.engine results.length cursor last ∧ last.visited = cursor.outcomes ∧
      command.nonQuery c = .ok last.affected (last.close c').2 := by
  obtain ⟨last, hskips, hvisited, hskip⟩ := htracks.skipAll_eq_ok he
  exact ⟨last, hskips, hvisited,
    withCursor_of_ok hopen (Effect.bind_eq_ok.mpr ⟨(), last, hskip, rfl⟩)⟩

theorem scalar_eq_ok (he : c'.engine.Undisturbed) (hopen : command.openCursor c = .ok cursor c')
    (htracks : Cursor.Tracks c'.engine results cursor {}) :
    ∃ mid last, Cursor.firstValue c'.engine cursor = .ok (Cursor.firstCell? results) mid ∧
      Cursor.Skips c'.engine (results.length - 1) mid last ∧ last.visited = cursor.outcomes ∧
      command.scalar c = .ok (Cursor.firstCell? results) (last.close c').2 := by
  obtain ⟨mid, r, hfirst, hmid⟩ := htracks.firstValue_eq_ok he
  obtain ⟨last, hskips, hvisited, hskip⟩ := hmid.skipAll_eq_ok he
  have houtcomes : mid.outcomes = cursor.outcomes :=
    (Cursor.frame_inj ((Cursor.firstValue_keeps _ _).of_ok hfirst)).1
  refine ⟨mid, last, hfirst, hskips, hvisited.trans houtcomes, ?_⟩
  exact withCursor_of_ok hopen (Effect.bind_eq_ok.mpr ⟨_, mid, hfirst,
    Effect.bind_eq_ok.mpr ⟨(), last, hskip, rfl⟩⟩)

theorem firstCell?_sheets {e : Engine} {schemaOnly : Bool} (hrect : e.Rectangular) :
    Cursor.firstCell? (sheets e schemaOnly statements) = some v ↔
      schemaOnly = false ∧ ∃ s rest column columns cells rows, statements = s :: rest ∧
        e.response s.sql = .rows (column :: columns) ((v :: cells) :: rows) := by
  constructor
  · intro h
    cases statements with
    | nil => cases h
    | cons s rest =>
      have hcell : (Sheet.ofResponse schemaOnly (e.response s.sql)).rows.head?.bind List.head? =
          some v := h
      have hresponse := hrect.response s.sql
      cases hanswer : e.response s.sql with
      | command processed =>
        rw [hanswer] at hcell
        cases hcell
      | failure record =>
        rw [hanswer] at hcell
        cases hcell
      | rows columns body =>
        rw [hanswer] at hcell hresponse
        cases schemaOnly with
        | true => cases hcell
        | false =>
          obtain ⟨row, hrow, hv⟩ := Option.bind_eq_some_iff.mp hcell
          obtain ⟨rows, rfl⟩ := List.head?_eq_some_iff.mp hrow
          obtain ⟨cells, rfl⟩ := List.head?_eq_some_iff.mp hv
          have hwidth : (v :: cells).length = columns.length := hresponse _ List.mem_cons_self
          cases columns with
          | nil => cases hwidth
          | cons column columns =>
            exact ⟨rfl, s, rest, column, columns, cells, rows, rfl, hanswer⟩
  · rintro ⟨rfl, s, rest, column, columns, cells, rows, rfl, hanswer⟩
    show (Sheet.ofResponse false (e.response s.sql)).rows.head?.bind List.head? = some v
    rw [hanswer]
    rfl

end Command
end SqlSession
