import SqlSession.Proofs.Command.Dispatch
import SqlSession.Proofs.Command.Opening
import SqlSession.Proofs.Cursor.Refinement

/-!
# Cursors of commands

A command that has been sent gives a cursor over the answers to its statements.
`Command.openCursor_replies` says that the cursor answers every sequence of questions as a walk over
these answers does, and counts out when it goes on to a result, to a row and to a value.
-/

namespace SqlSession
namespace Command

/-- The plain results of statements that are sent to an engine. -/
def sheets (e : Engine) (schemaOnly : Bool) (statements : List PlannedStatement) : List Sheet :=
  statements.map fun s => Sheet.ofResponse schemaOnly (e.response s.sql)

variable {command : Command} {c c' : Connection} {cursor : Cursor}

theorem openCursor_tracks (hrect : c.engine.Rectangular) (hfaults : c.engine.Undisturbed)
    (hopen : command.openCursor c = .ok cursor c') :
    ∃ statements, plan c.config.numberNamed command.parts = .ok statements ∧
      c'.engine.Undisturbed ∧
      Cursor.Tracks c'.engine (sheets c.engine command.behavior.schemaOnly statements) cursor {} := by
  obtain ⟨-, statements, outcomes, e, hplan, hsend, rfl, rfl⟩ := openCursor_eq_ok hopen
  obtain ⟨hcontinues, hanswers⟩ := PlannedStatement.sendAll_eq_ok hfaults.rowCount hsend
  refine ⟨statements, hplan, hfaults.of_alike hcontinues.alike, ?_, rfl, ?_, .start rfl rfl rfl⟩
  · rw [sheets, List.forall₂_map_left_iff]
    exact hanswers.imp fun s o ho => ⟨_, ho, hrect.response s.sql, rfl⟩
  · exact RowBuffer.sized_blank 0

/-- The cursor of a command answers like a walk over the results of its statements: it comes to as
many results as there are statements and to all rows of each, and has a value if there is a current
row with a column for it. -/
theorem openCursor_replies (hrect : c.engine.Rectangular) (hfaults : c.engine.Undisturbed)
    (hopen : command.openCursor c = .ok cursor c') :
    ∃ statements results, plan c.config.numberNamed command.parts = .ok statements ∧
      results = sheets c.engine command.behavior.schemaOnly statements ∧
      (∀ asks, replies (Cursor.reply c'.engine) asks cursor = replies (Walk.reply results) asks {}) ∧
      (∀ asks, answerAfter (Cursor.reply c'.engine) asks .nextResult cursor =
        .ok (.flag (decide (asks.count .nextResult < statements.length)))) ∧
      (∀ asks, answerAfter (Cursor.reply c'.engine) asks .read cursor =
        .ok (.flag (((Walk.counted asks).sheet? results).any fun sheet =>
          decide (Walk.rowsAsked asks < sheet.rows.length)))) ∧
      (∀ asks i v, answerAfter (Cursor.reply c'.engine) asks (.value i) cursor = .ok (.value v) ↔
        ∃ row, (Walk.counted asks).row? results = some row ∧ row[i]? = some v) ∧
      (∀ asks i, (∃ v, answerAfter (Cursor.reply c'.engine) asks (.value i) cursor = .ok v) ↔
        ((Walk.counted asks).row? results).isSome ∧
          i < ((Walk.counted asks).columns results).length) := by
  obtain ⟨statements, hplan, he, htracks⟩ := openCursor_tracks hrect hfaults hopen
  have hanswer : ∀ asks ask, answerAfter (Cursor.reply c'.engine) asks ask cursor =
      answerAfter (Walk.reply (sheets c.engine command.behavior.schemaOnly statements)) asks ask {} :=
    fun asks ask => ((htracks.afterAsks he asks).reply he ask).1
  refine ⟨statements, _, hplan, rfl, htracks.replies_eq he, ?_, ?_, ?_, ?_⟩
  · intro asks
    rw [hanswer, Walk.nextResult_after, sheets, List.length_map]
  · intro asks
    rw [hanswer, Walk.read_after]
  · intro asks i v
    rw [hanswer, Walk.value_after, ← Walk.value_eq_ok]
    cases (Walk.counted asks).value _ i <;> simp
  · intro asks i
    rw [← Walk.value_isOk_iff htracks.rectangular, hanswer, Walk.value_after]
    cases (Walk.counted asks).value _ i <;> simp

/-- A connection to an engine that answers the query `t` with two rows. -/
def twoRows : Connection :=
  { engine := Engine.initial.answerWith "t" (.rows [Column.ofType "n" Oid.int4 Facets.undeclared]
      [[.int 1], [.int 2]])
    phase := .idle }

/-- Two statements give two results with the two rows each, and no third one. -/
theorem openCursor_replies_twoRows :
    ∃ cursor c', (single "t;t" [] {}).openCursor twoRows = .ok cursor c' ∧
      ∃ statements results, plan true [⟨"t;t", []⟩] = .ok statements ∧
        results = sheets twoRows.engine false statements ∧
        ∀ asks, answerAfter (Cursor.reply c'.engine) asks .nextResult cursor =
          .ok (.flag (decide (asks.count .nextResult < statements.length))) := by
  have hrect : twoRows.engine.Rectangular := by
    refine Engine.rectangular_initial.answerWith _ ?_
    intro row hrow
    rcases List.mem_pair.mp hrow with rfl | rfl <;> rfl
  have hopens : (match (single "t;t" [] {}).openCursor twoRows with
      | .ok _ _ => true
      | .error _ _ => false) = true := by decide +kernel
  cases hopen : (single "t;t" [] {}).openCursor twoRows with
  | ok cursor c' =>
    obtain ⟨statements, results, hplan, hresults, -, hnext, -⟩ :=
      openCursor_replies hrect ⟨rfl, rfl, rfl, rfl⟩ hopen
    exact ⟨cursor, c', rfl, statements, results, hplan, hresults, hnext⟩
  | error err c' =>
    rw [hopen] at hopens
    cases hopens

end Command
end SqlSession
