import SqlSession.Proofs.Command.Affected
import SqlSession.Proofs.Session.Ending

/-!
# How many rows a command has changed

Whatever a cursor is asked, it counts the rows that were changed by the statements whose results it has
come to, and a caller can tell from the answers which ones these are (`Session.entered`).  A command that
is executed for its number of rows tells the count behind its last result, and one that is executed for
a value tells the first cell of its first result.
-/

namespace SqlSession
namespace Session

variable {s : Session} {cursor : Cursor} {outer : List Scope}

/-- How many rows the statements of the innermost cursor have changed so far. -/
def affected? (s : Session) : Option Int :=
  match s.scopes with
  | .cursor cursor :: _ => some cursor.affected
  | _ => none

/-- How many results a cursor has come to by an event.  If the next result cannot be had, the cursor
has come to it and could not fetch its first row. -/
def Event.entered (ev : Event) : Nat :=
  match ev.step, ev.reply with
  | .cursor .nextResult, .ok (.flag more) => more.toNat
  | .cursor .nextResult, .error _ => 1
  | _, _ => 0

/-- How many results a cursor has come to. -/
def entered : List Event → Nat
  | [] => 0
  | ev :: events => ev.entered + entered events

theorem affected?_of_cursor (h : s.scopes = .cursor cursor :: outer) :
    s.affected? = some cursor.affected := by
  rw [affected?, h]

/-- A call of a cursor leaves it in its place, and its answer tells whether the cursor has come to
another result. -/
theorem cursorStep_enters (hinner : s.scopes = .cursor cursor :: outer) {call : CursorStep}
    (hcall : call.IsCall) :
    ∃ cursor', (s.cursorStep outer cursor call).2.scopes = .cursor cursor' :: outer ∧
      Cursor.Entered (Event.entered ⟨s, .cursor call, (s.cursorStep outer cursor call).1,
        (s.cursorStep outer cursor call).2⟩) cursor cursor' := by
  have hsame : Cursor.Entered 0 cursor cursor := Cursor.entered_of_same rfl rfl
  cases call
  case takeCursorEnd | drain | drop | leak => exact hcall.elim
  case nextResult =>
    have hmove := Cursor.nextResult_enters s.connection.engine cursor
    unfold cursorStep onCursor
    dsimp only
    cases hnext : Cursor.nextResult s.connection.engine cursor with
    | ok more cursor' =>
      rw [hnext] at hmove
      exact ⟨cursor', rfl, hmove⟩
    | error err cursor' =>
      rw [hnext] at hmove
      exact ⟨cursor', rfl, hmove⟩
  case read =>
    have hmove := Cursor.read_enters s.connection.engine cursor
    unfold cursorStep onCursor
    dsimp only
    cases hread : Cursor.read s.connection.engine cursor with
    | ok more cursor' => exact ⟨cursor', rfl, hmove.of_ok hread⟩
    | error err cursor' => exact ⟨cursor', rfl, (hmove.of_error hread).1⟩
  case close => exact ⟨_, rfl, cursor.finish_enters false s.connection⟩
  case dispose => exact ⟨_, rfl, cursor.finish_enters true s.connection⟩
  case typeName i =>
    refine ⟨cursor, ?_, hsame⟩
    show (onConnection _ _ _).2.scopes = _
    rw [onConnection_eq]
    exact hinner
  all_goals exact ⟨cursor, hinner, hsame⟩

theorem run_enters (hinner : s.scopes = .cursor cursor :: outer) {calls : List CursorStep}
    (hcalls : ∀ call ∈ calls, call.IsCall) :
    ∃ last, (s.run (calls.map .cursor)).scopes = .cursor last :: outer ∧
      Cursor.Entered (entered (s.events (calls.map .cursor))) cursor last := by
  induction calls generalizing s cursor with
  | nil => exact ⟨cursor, hinner, Cursor.entered_of_same rfl rfl⟩
  | cons call calls ih =>
    obtain ⟨hcall, hrest⟩ := List.forall_mem_cons.mp hcalls
    obtain ⟨cursor', hafter, hentered⟩ := cursorStep_enters hinner hcall
    obtain ⟨hevents, hrun⟩ := events_of_step? (step?_cursor hinner call) (calls.map .cursor)
    obtain ⟨last, hlast, hmore⟩ := ih hafter hrest
    rw [List.map_cons, hevents, hrun]
    exact ⟨last, hlast, hentered.trans hmore⟩

end Session

open Session

/-- A cursor counts the rows that were changed by the statements whose results it has come to.  The
count never becomes smaller, and changes only with another result.  A command that is executed for a
number of rows or for a value goes over all of its results and sends nothing more than its cursor has
sent.  It tells the count of all results, or the first cell of the first one. -/
theorem Command.affected_agrees (command : Command) (c : Connection) :
    (∀ err c', command.openCursor c = .error err c' →
      command.nonQuery c = .error err c' ∧ command.scalar c = .error err c') ∧
    ∀ cursor c', command.openCursor c = .ok cursor c' →
      ∃ statements outcomes, plan c.config.numberNamed command.parts = .ok statements ∧
        PlannedStatement.sendAll statements c.engine = .ok outcomes c'.engine ∧
        Effect.Ends (fun c'' => c''.engine = c'.engine) Error.OfCursor (command.nonQuery c) ∧
        Effect.Ends (fun c'' => c''.engine = c'.engine) Error.OfCursor (command.scalar c) ∧
        (∀ outer (calls more : List CursorStep), (∀ call ∈ calls ++ more, call.IsCall) →
          let s : Session := ⟨c', .cursor cursor :: outer⟩
          let s' := s.run (calls.map .cursor)
          let count := entered (s.events (calls.map .cursor))
          count ≤ outcomes.length ∧
          ∃ n n', s'.affected? = some n ∧ (s'.run (more.map .cursor)).affected? = some n' ∧
            Outcome.Tallied (outcomes.take count) n ∧ n ≤ n' ∧
            (entered (s'.events (more.map .cursor)) = 0 → n' = n)) ∧
        (c.engine.Rectangular → c.engine.Undisturbed →
          (∃ last n, Cursor.Skips c'.engine statements.length cursor last ∧
            last.visited = outcomes ∧ command.nonQuery c = .ok n (last.close c').2 ∧
            Outcome.Tallied outcomes n) ∧
          ∃ first mid last, Cursor.firstValue c'.engine cursor = .ok first mid ∧
            Cursor.Skips c'.engine (statements.length - 1) mid last ∧ last.visited = outcomes ∧
            command.scalar c = .ok first (last.close c').2 ∧
            ∀ v, first = some v ↔ command.behavior.schemaOnly = false ∧
              ∃ s rest column columns cells rows, statements = s :: rest ∧
                c.engine.response s.sql = .rows (column :: columns) ((v :: cells) :: rows)) := by
  refine ⟨fun err c' herror => ⟨withCursor_of_error herror, withCursor_of_error herror⟩, ?_⟩
  intro cursor c' hopen
  obtain ⟨-, statements, outcomes, e, hplan, hsend, hcursor, hc'⟩ := openCursor_eq_ok hopen
  have houtcomes : cursor.outcomes = outcomes := by rw [hcursor]
  have hstart : cursor.visited = [] := by rw [hcursor]; rfl
  refine ⟨statements, outcomes, hplan, by rw [hc']; exact hsend,
    withCursor_engine nonQuery_walk_keeps hopen, withCursor_engine scalar_walk_keeps hopen, ?_, ?_⟩
  · intro outer calls more hcalls s s' count
    obtain ⟨hfirst, hmore⟩ := List.forall_mem_append.mp hcalls
    obtain ⟨reached, hreached, hentered⟩ := run_enters (s := s) rfl hfirst
    obtain ⟨last, hlast, hlater⟩ := run_enters hreached hmore
    have hvisited : reached.visited = outcomes.take count := by
      rw [hentered.visited_eq, houtcomes, hstart, List.length_nil, Nat.zero_add]
    have hcount : reached.visited.length = count := by
      rw [hentered.visited, hstart, List.length_nil, Nat.zero_add]
    obtain ⟨hle, hkept⟩ := hlater.affected
    refine ⟨?_, reached.affected, last.affected, affected?_of_cursor hreached,
      affected?_of_cursor hlast, Cursor.tallied_of_visited hvisited, hle, hkept⟩
    rw [← hcount, hvisited]
    exact List.length_take_le' _ _
  · intro hrect hfaults
    obtain ⟨statements', hplan', he, htracks⟩ := openCursor_tracks hrect hfaults hopen
    obtain rfl : statements' = statements := Except.ok.inj (hplan'.symm.trans hplan)
    have hlength : (sheets c.engine command.behavior.schemaOnly statements').length =
        statements'.length := List.length_map _
    obtain ⟨last, hskips, hvisited, hdone⟩ := nonQuery_eq_ok he hopen htracks
    obtain ⟨mid, last', hfirst, hskips', hvisited', hdone'⟩ := scalar_eq_ok he hopen htracks
    rw [hlength] at hskips hskips'
    rw [houtcomes] at hvisited hvisited'
    exact ⟨⟨last, _, hskips, hvisited, hdone, Cursor.tallied_of_visited hvisited⟩,
      _, mid, last', hfirst, hskips', hvisited', hdone', fun v => firstCell?_sheets hrect⟩

namespace Command

/-- A connection to an engine that answers `t` with two rows and that deletes three. -/
def selecting : Connection :=
  { engine := (Engine.initial.answerWith "t"
      (.rows [Column.ofType "n" Oid.int4 Facets.undeclared] [[.int 1], [.int 2]])).answerWith
        "DELETE FROM t" (.command 3)
    phase := .idle }

/-- The first value is the one of the table, although a deletion comes behind it, and the number of rows is
the one of the deletion, although a table comes before it. -/
theorem affected_agrees_selecting :
    ∃ cursor c', (single "t;DELETE FROM t" [] {}).openCursor selecting = .ok cursor c' ∧
      (∃ c'', (single "t;DELETE FROM t" [] {}).nonQuery selecting = .ok 3 c'') ∧
      (∃ c'', (single "t;DELETE FROM t" [] {}).scalar selecting = .ok (some (.int 1)) c'') ∧
      let s : Session := ⟨c', [.cursor cursor]⟩
      ∃ n n', (s.run [.cursor .nextResult]).affected? = some n ∧
        (s.run [.cursor .nextResult, .cursor .nextResult, .cursor .close]).affected? = some n' ∧
        n ≤ n' := by
  have hrect : selecting.engine.Rectangular := by
    refine (Engine.rectangular_initial.answerWith _ ?_).answerWith _ True.intro
    intro row hrow
    rcases List.mem_pair.mp hrow with rfl | rfl <;> rfl
  have hopens : (Effect.verdict ((single "t;DELETE FROM t" [] {}).openCursor selecting)).toBool = true := by
    decide +kernel
  have hcount : (Effect.verdict ((single "t;DELETE FROM t" [] {}).nonQuery selecting)).toOption =
      some 3 := by decide +kernel
  have hfirst : (plan true [⟨"t;DELETE FROM t", []⟩]).toOption.bind
      (fun statements => statements.head?.map PlannedStatement.sql) = some "t" := by decide +kernel
  have hanswer : selecting.engine.response "t" =
      .rows [Column.ofType "n" Oid.int4 Facets.undeclared] [[.int 1], [.int 2]] := rfl
  cases hopen : (single "t;DELETE FROM t" [] {}).openCursor selecting with
  | error err c' =>
    rw [hopen] at hopens
    cases hopens
  | ok cursor c' =>
    obtain ⟨statements, outcomes, hplan, -, -, -, hruns, hall⟩ :=
      (affected_agrees _ _).2 cursor c' hopen
    obtain ⟨⟨_, n, -, -, hn, -⟩, first, _, _, -, -, -, hscalar, hcell⟩ :=
      hall hrect ⟨rfl, rfl, rfl, rfl⟩
    obtain rfl : n = 3 := by
      rw [hn] at hcount
      exact Option.some.inj hcount
    obtain ⟨-, n₁, n₂, hn₁, hn₂, -, hle, -⟩ :=
      hruns [] [.nextResult] [.nextResult, .close] (by simp [CursorStep.IsCall])
    obtain rfl : first = some (.int 1) := by
      have hplan : plan true [⟨"t;DELETE FROM t", []⟩] = .ok statements := hplan
      rw [hplan] at hfirst
      cases statements with
      | nil => cases hfirst
      | cons s rest =>
        have hsql : s.sql = "t" := Option.some.inj hfirst
        rw [← hsql] at hanswer
        exact (hcell _).mpr ⟨rfl, s, rest, _, _, _, _, rfl, hanswer⟩
    exact ⟨cursor, c', rfl, ⟨_, hn⟩, ⟨_, hscalar⟩, n₁, n₂, hn₁, hn₂, hle⟩

end Command
end SqlSession
