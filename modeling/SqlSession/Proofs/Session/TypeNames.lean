import SqlSession.Proofs.Connection.Resolving
import SqlSession.Proofs.Cursor.Grounded
import SqlSession.Proofs.Session.Completion
import SqlSession.Proofs.Session.Standing

/-!
# Names of types are looked up unnoticed

To look up the name of a type can take a query, which is sent to the engine that a cursor is reading
from.  The query adds tables, values and error records to the engine and changes its row count, and it
can fail in many ways.  The cursor notices nothing of this, because it stands on handles that the engine
keeps (`Session.Reached.typeName_unnoticed`).
-/

namespace SqlSession

open Effect Engine

/-! ## Sessions side by side -/

/-- There is something behind the handles of all cursors. -/
def Grounded (e : Engine) (scopes : List Scope) : Prop :=
  ∀ cursor, .cursor cursor ∈ scopes → cursor.Grounded e

namespace Grounded

variable {e e' : Engine} {scopes outer : List Scope} {scope : Scope}

theorem of_noCursor (h : NoCursor scopes) : Grounded e scopes :=
  fun cursor hmem => absurd hmem (h cursor)

theorem tail (h : Grounded e (scope :: outer)) : Grounded e outer :=
  fun cursor hmem => h cursor (List.mem_cons_of_mem _ hmem)

theorem cons {cursor : Cursor} (hcursor : cursor.Grounded e) (h : Grounded e outer) :
    Grounded e (.cursor cursor :: outer) := by
  intro other hmem
  obtain hfirst | hrest := List.mem_cons.mp hmem
  · cases hfirst
    exact hcursor
  · exact h other hrest

theorem mono (hkeeps : Keeps e e') (h : Grounded e scopes) : Grounded e' scopes :=
  fun cursor hmem => (h cursor hmem).mono hkeeps

end Grounded

/-- The scope is a cursor that has a current row. -/
def Scope.isOnRow : Scope → Bool
  | .cursor c => c.onRow
  | .transaction _ => false

/-- The step asks for the name of a type. -/
def Step.NamesType : Step → Prop
  | .cursor (.typeName _) => True
  | _ => False

namespace Session

variable {s s' : Session}

/-- The sessions differ in nothing but the engines and the types of their connections.  Their cursors in
particular are the same in everything. -/
structure Matches (s s' : Session) : Prop where
  scopes : s'.scopes = s.scopes
  connection : s'.connection = s.connection.holding s'.connection.registry s'.connection.engine

/-- The same step in two sessions, with the same answer.  For the name of a type this is said only of an
engine that reports its own row counts: an error about a row that is not there tells the number of the
table, and a table that is made later has a higher number. -/
structure Event.Same (ev ev' : Event) : Prop where
  step : ev'.step = ev.step
  reply : (ev.step.NamesType → ev.before.connection.engine.faults.rowCount = none) →
    ev'.reply = ev.reply
  after : Matches ev.after ev'.after

/-- Two sessions that have come from the same connection by looking up types in different ways. -/
structure Beside (base : Connection) (s s' : Session) : Prop where
  left : base.Resolves s.connection
  right : base.Resolves s'.connection
  scopes : s'.scopes = s.scopes
  grounded : Grounded base.engine s.scopes

theorem Beside.matches {base : Connection} (h : Beside base s s') : Matches s s' where
  scopes := h.scopes
  connection := by
    rw [h.right.same, h.left.same]
    rfl

variable {base : Connection} {cursor : Cursor} {outer : List Scope} {α : Type}

theorem onCursor_beside (h : Beside base s s') (houter : Grounded base.engine outer)
    {reply : α → Reply} {work₀ work work' : CursorM α}
    (hleft : Cursor.SteadyFrom base.engine cursor work₀ work)
    (hright : Cursor.SteadyFrom base.engine cursor work₀ work') :
    (s'.onCursor outer cursor reply work').1 = (s.onCursor outer cursor reply work).1 ∧
      Beside base (s.onCursor outer cursor reply work).2 (s'.onCursor outer cursor reply work').2 := by
  obtain ⟨heq, hends⟩ := hleft
  unfold onCursor
  rw [heq, hright.1]
  cases hwork : work₀ cursor with
  | ok a cursor' => exact ⟨rfl, h.left, h.right, rfl, .cons (hends.of_ok hwork) houter⟩
  | error err cursor' => exact ⟨rfl, h.left, h.right, rfl, .cons (hends.of_error hwork).1 houter⟩

theorem endCursor_beside (h : Beside base s s') (hcursor : cursor.Grounded base.engine)
    (houter : Grounded base.engine outer) (disposing : Bool) :
    Beside (cursor.finish disposing base).2
      (endCursor outer (cursor.finish disposing s.connection)).2
      (endCursor outer (cursor.finish disposing s'.connection)).2 where
  left := h.left.map (f := fun c => (cursor.finish disposing c).2) (cursor.finish_holding disposing)
  right := h.right.map (f := fun c => (cursor.finish disposing c).2) (cursor.finish_holding disposing)
  scopes := by
    unfold endCursor
    rw [cursor.finish_fst disposing s.connection]
  grounded := by
    rw [cursor.finish_engine]
    exact .cons (hcursor.finish disposing _) houter

/-- A step with the cursor that both sessions are on has the same answer and leaves them side by side. -/
theorem cursorStep_beside (h : Beside base s s') (hinner : s.scopes = .cursor cursor :: outer)
    (step : CursorStep) :
    ((Step.NamesType (.cursor step) → base.engine.faults.rowCount = none) →
        (s'.cursorStep outer cursor step).1 = (s.cursorStep outer cursor step).1) ∧
      ∃ base', Beside base' (s.cursorStep outer cursor step).2 (s'.cursorStep outer cursor step).2 := by
  have hground := h.grounded
  rw [hinner] at hground
  have houter := hground.tail
  have hcursor : cursor.Grounded base.engine := hground cursor List.mem_cons_self
  have hleft := h.left.continues
  have hright := h.right.continues
  have hvalue : cursor.value s'.connection.engine = cursor.value s.connection.engine := by
    rw [Cursor.value_of_continues hright hcursor, Cursor.value_of_continues hleft hcursor]
  cases step
  case nextResult =>
    obtain ⟨hreply, hafter⟩ := onCursor_beside h houter
      (Cursor.nextResult_steadyFrom hleft hcursor) (Cursor.nextResult_steadyFrom hright hcursor)
    exact ⟨fun _ => hreply, base, hafter⟩
  case read =>
    obtain ⟨hreply, hafter⟩ := onCursor_beside h houter
      (Cursor.read_steadyFrom hleft hcursor) (Cursor.read_steadyFrom hright hcursor)
    exact ⟨fun _ => hreply, base, hafter⟩
  case typeName i =>
    have hstep : ∀ s : Session, s.cursorStep outer cursor (.typeName i) =
        (.text <$> verdict (cursor.typeName i s.connection),
          { s with connection := final (cursor.typeName i s.connection) }) :=
      fun s => onConnection_eq s _ _
    rw [hstep, hstep]
    refine ⟨fun hcount => ?_, base, ?_⟩
    · dsimp only
      rw [Cursor.verdict_typeName_of_resolves h.right (hcount trivial),
        Cursor.verdict_typeName_of_resolves h.left (hcount trivial)]
    · exact ⟨h.left.trans (cursor.typeName_resolves i _),
        h.right.trans (cursor.typeName_resolves i _), h.scopes, h.grounded⟩
  case value i =>
    refine ⟨fun _ => ?_, base, h⟩
    unfold cursorStep
    dsimp only
    rw [hvalue]
  case values =>
    refine ⟨fun _ => ?_, base, h⟩
    unfold cursorStep Cursor.values
    dsimp only
    rw [hvalue]
  case convert column target =>
    have hconvert : Cursor.valueAs s'.connection.engine target cursor =
        Cursor.valueAs s.connection.engine target cursor := by
      funext i
      unfold Cursor.valueAs
      rw [hvalue]
    refine ⟨fun _ => ?_, base, h⟩
    unfold cursorStep
    dsimp only
    rw [hconvert]
  case convertOptional column target =>
    have hconvert : Cursor.valueAsOptional s'.connection.engine target cursor =
        Cursor.valueAsOptional s.connection.engine target cursor := by
      funext i
      unfold Cursor.valueAsOptional
      rw [hvalue]
    refine ⟨fun _ => ?_, base, h⟩
    unfold cursorStep
    dsimp only
    rw [hconvert]
  case takeCursorEnd =>
    have hended := congrArg Connection.cursorEnded h.matches.connection
    refine ⟨fun _ => congrArg (fun ended => Except.ok (Reply.flag ended)) hended, base.takeCursorEnd.2, ?_⟩
    have hmap : ∀ {c}, base.Resolves c → base.takeCursorEnd.2.Resolves c.takeCursorEnd.2 :=
      Connection.Resolves.map (f := fun c => c.takeCursorEnd.2) fun _ _ _ => rfl
    exact ⟨hmap h.left, hmap h.right, h.scopes, h.grounded⟩
  case drain =>
    obtain ⟨hdrain, hlast⟩ := Cursor.drain_of_continues hleft hcursor
    have hdrain' := (Cursor.drain_of_continues hright hcursor).1
    unfold cursorStep
    dsimp only
    rw [hdrain, hdrain']
    exact ⟨fun _ => rfl, base, h.left, h.right, rfl, .cons hlast houter⟩
  case close => exact ⟨fun _ => rfl, _, endCursor_beside h hcursor houter false⟩
  case dispose => exact ⟨fun _ => rfl, _, endCursor_beside h hcursor houter true⟩
  case drop =>
    have hended := endCursor_beside h hcursor houter true
    exact ⟨fun _ => rfl, _, hended.left, hended.right, rfl, hended.grounded.tail⟩
  case leak => exact ⟨fun _ => rfl, base, h.left, h.right, rfl, houter⟩
  all_goals exact ⟨fun _ => rfl, base, h⟩

/-! ## Runs side by side -/

theorem step?_cursor (hinner : s.scopes = .cursor cursor :: outer) (step : CursorStep) :
    s.step? (.cursor step) = some (s.cursorStep outer cursor step) := by
  obtain ⟨c, scopes⟩ := s
  obtain rfl := hinner
  rfl

theorem step?_cursor_eq_none (h : ∀ cursor outer, s.scopes ≠ .cursor cursor :: outer)
    (step : CursorStep) : s.step? (.cursor step) = none := by
  obtain ⟨c, scopes⟩ := s
  obtain _ | ⟨cursor | t, outer⟩ := scopes
  · rfl
  · exact absurd rfl (h cursor outer)
  · rfl

/-- Whatever is done with the cursors of two sessions that stand side by side goes the same in both. -/
theorem Beside.events (h : Beside base s s') (later : List CursorStep) :
    List.Forall₂ Event.Same (s.events (later.map .cursor)) (s'.events (later.map .cursor)) := by
  induction later generalizing base s s' with
  | nil => exact .nil
  | cons step later ih =>
    rw [List.map_cons]
    by_cases hinner : ∃ cursor outer, s.scopes = .cursor cursor :: outer
    · obtain ⟨cursor, outer, hinner⟩ := hinner
      obtain ⟨hreply, base', hafter⟩ := cursorStep_beside h hinner step
      have hstep := step?_cursor hinner step
      have hstep' := step?_cursor (h.scopes.trans hinner) step
      rw [(events_of_step? hstep _).1, (events_of_step? hstep' _).1]
      refine .cons ⟨rfl, fun hcount => hreply fun hnames => ?_, hafter.matches⟩ (ih hafter)
      rw [← h.left.continues.alike.faults]
      exact hcount hnames
    · have hnone : ∀ cursor outer, s.scopes ≠ .cursor cursor :: outer :=
        fun cursor outer heq => hinner ⟨cursor, outer, heq⟩
      have hnone' : ∀ cursor outer, s'.scopes ≠ .cursor cursor :: outer :=
        fun cursor outer => h.scopes ▸ hnone cursor outer
      rw [(events_of_step?_none (step?_cursor_eq_none hnone step) _).1,
        (events_of_step?_none (step?_cursor_eq_none hnone' step) _).1]
      exact ih h

/-! ## Cursors of sessions that have come about -/

theorem grounded_connectionStep (h : NoCursor s.scopes) (step : ConnectionStep) :
    Grounded (s.connectionStep step).2.connection.engine (s.connectionStep step).2.scopes := by
  cases step
  case openCursor command =>
    show Grounded (enter _ _ _).2.connection.engine (enter _ _ _).2.scopes
    unfold enter
    cases hopen : command.openCursor s.connection with
    | ok cursor c => exact .cons (Command.openCursor_grounded hopen) (.of_noCursor h)
    | error err c => exact .of_noCursor h
  case begin level =>
    show Grounded (enter _ _ _).2.connection.engine (enter _ _ _).2.scopes
    unfold enter
    cases Transaction.start level s.connection with
    | ok t c => exact .of_noCursor (noCursor_transaction.mpr h)
    | error err c => exact .of_noCursor h
  case openUp | loadTypes | resolveType | send | scalar | nonQuery =>
    show Grounded (onConnection _ _ _).2.connection.engine (onConnection _ _ _).2.scopes
    rw [onConnection_eq]
    exact .of_noCursor h
  all_goals exact .of_noCursor h

theorem grounded_transactionStep {t : Transaction} (hinner : s.scopes = .transaction t :: outer)
    (h : NoCursor outer) (step : TransactionStep) :
    Grounded (s.transactionStep outer t step).2.connection.engine
      (s.transactionStep outer t step).2.scopes := by
  have hall : NoCursor s.scopes := by
    rw [hinner]
    exact noCursor_transaction.mpr h
  cases step
  case commit | rollback | drop | leak =>
    show Grounded (leave _ _ _ _).2.connection.engine (leave _ _ _ _).2.scopes
    unfold leave
    rw [onConnection_eq]
    exact .of_noCursor h
  case save | release | rollbackTo =>
    show Grounded (onConnection _ _ _).2.connection.engine (onConnection _ _ _).2.scopes
    rw [onConnection_eq]
    exact .of_noCursor hall

variable {free : Connection → Prop} {busy : Connection → Cursor → Prop}

theorem grounded_step (hholds : Holds free busy s) (h : Grounded s.connection.engine s.scopes)
    (step : Step) : Grounded (s.step step).connection.engine (s.step step).scopes := by
  unfold Session.step
  cases hstep : s.step? step with
  | none => exact h
  | some result =>
    cases takes_of_step? hstep with
    | connection step =>
      obtain hnone | ⟨hnested, -⟩ := step?_connection hholds step
      · rw [hnone] at hstep
        cases hstep
      · exact grounded_connectionStep hnested step
    | transaction hinner step =>
      refine grounded_transactionStep hinner ?_ step
      unfold Holds at hholds
      rw [hinner] at hholds
      cases hholds with
      | free hnested _ => exact noCursor_transaction.mp hnested
    | cursor hinner step =>
      -- The session goes the same way as itself.
      have hself : Beside s.connection s s := ⟨.refl _, .refl _, rfl, h⟩
      obtain ⟨-, base', hafter⟩ := cursorStep_beside hself hinner step
      exact hafter.grounded.mono hafter.left.continues.keeps

theorem Reached.grounded {steps : List Step} (h : Reached steps s) :
    Grounded s.connection.engine s.scopes := by
  obtain ⟨settings, config, rfl⟩ := h
  induction steps using List.reverseRecOn with
  | nil => exact .of_noCursor noCursor_nil
  | append_singleton steps step ih =>
    rw [run_append]
    exact grounded_step (Reached.holds ⟨settings, config, rfl⟩) ih step

/-- To ask a cursor for the name of a type, whatever comes of it, changes nothing but the engine and the
types: the cursor stays as it is, and so do the phase and the binding of its connection.  And whatever is
done with the cursor after that has the same answers as without the question, and leaves the cursor and
the connection as they would be without it. -/
theorem Reached.typeName_unnoticed {steps : List Step} (h : Reached steps s)
    (hinner : s.scopes = .cursor cursor :: outer) (i : Nat) :
    ∃ reply s', s.step? (.cursor (.typeName i)) = some (reply, s') ∧ Matches s s' ∧
      ∀ later : List CursorStep,
        List.Forall₂ Event.Same (s.events (later.map .cursor)) (s'.events (later.map .cursor)) := by
  refine ⟨_, _, step?_cursor hinner (.typeName i), ?_⟩
  have hstep : (s.cursorStep outer cursor (.typeName i)).2 =
      { s with connection := final (cursor.typeName i s.connection) } :=
    congrArg Prod.snd (onConnection_eq s .text (cursor.typeName i))
  have hbeside : Beside s.connection s (s.cursorStep outer cursor (.typeName i)).2 := by
    rw [hstep]
    exact ⟨.refl _, cursor.typeName_resolves i _, rfl, h.grounded⟩
  exact ⟨hbeside.matches, hbeside.events⟩

def toFirstRow : List Step :=
  [.connection .openUp, .connection (.openCursor (.single "t" [] {})), .cursor .nextResult,
    .cursor .read]

/-- A session with a cursor on the first of two rows, before any types have been loaded. -/
def onFirstRow : Session :=
  (start [.script "t" (.rows [Column.ofType "n" Oid.int4 Facets.undeclared]
    [[.int 1], [.int 2]])] {}).run toFirstRow

/-- The types are loaded between the first row and the second one, which is read all the same. -/
theorem Reached.typeName_unnoticed_onFirstRow :
    Reached toFirstRow onFirstRow ∧
      ∃ cursor, onFirstRow.scopes = [.cursor cursor] ∧ cursor.onRow = true ∧
        ∃ reply s', onFirstRow.step? (.cursor (.typeName 0)) = some (reply, s') ∧
          List.Forall₂ Event.Same (onFirstRow.events [.cursor .read, .cursor (.value 0)])
            (s'.events [.cursor .read, .cursor (.value 0)]) := by
  have hreached : Reached toFirstRow onFirstRow := ⟨_, _, rfl⟩
  have hshows : onFirstRow.scopes.map Scope.isOnRow = [true] := by decide +kernel
  obtain ⟨scope, hinner, hrow⟩ := List.map_eq_singleton_iff.mp hshows
  refine ⟨hreached, ?_⟩
  cases scope with
  | transaction t => cases hrow
  | cursor cursor =>
    obtain ⟨reply, s', hstep, -, hlater⟩ := hreached.typeName_unnoticed hinner 0
    exact ⟨cursor, hinner, hrow, reply, s', hstep, hlater [.read, .value 0]⟩

end Session
end SqlSession
