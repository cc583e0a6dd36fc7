import SqlSession.Proofs.Cursor.Moves
import SqlSession.Proofs.Session.Closed
import SqlSession.Proofs.Session.TypeNames

/-!
# A cursor ends once

The first time that a cursor is closed or disposed of gives its connection back.  Whatever is done with
the cursor after that leaves the connection as it is and finds no more rows and no columns
(`Session.Reached.ended_once`).
-/

namespace SqlSession

open Effect

namespace CursorStep

/-- The step asks something of a cursor, or ends it and leaves it in its scope. -/
def IsCall : CursorStep → Prop
  | .takeCursorEnd | .drain | .drop | .leak => False
  | _ => True

/-- The answer of a cursor that has ended, unless it tells of the columns that were seen last. -/
def answerEnded? : CursorStep → Option (Except Error Reply)
  | .nextResult | .read => some (.ok (.flag false))
  | .name _ | .typeOid _ | .typeName _ | .ordinal _ | .isNull _ | .value _ | .convert _ _
  | .convertOptional _ _ => some (.error (.state .cursorClosed))
  | .close | .dispose => some (.ok .done)
  | .drop => some (.ok (.ended .dropped))
  | .fieldCount | .fields | .values | .takeCursorEnd | .drain | .leak => none

end CursorStep

namespace Cursor

variable {cursor : Cursor}

theorem checkOpen_of_closed (h : cursor.isClosed = true) :
    cursor.checkOpen = .error (.state .cursorClosed) := by
  rw [checkOpen, if_pos h]

theorem field_of_closed (h : cursor.isClosed = true) (i : Nat) :
    cursor.field i = .error (.state .cursorClosed) := by
  rw [field, checkOpen_of_closed h]
  rfl

theorem ordinal_of_closed (h : cursor.isClosed = true) (name : String) :
    cursor.ordinal name = .error (.state .cursorClosed) := by
  rw [ordinal, checkOpen_of_closed h]
  rfl

theorem rowField_of_closed (h : cursor.isClosed = true) (i : Nat) :
    cursor.rowField i = .error (.state .cursorClosed) := by
  rw [rowField, checkOpen_of_closed h]
  rfl

theorem not_live_of_closed (h : cursor.isClosed = true) : ¬ cursor.Live := by
  rintro (hs | hs | hs) <;> simp [isClosed, hs] at h

theorem nextResult_of_closed (h : cursor.isClosed = true) (e : Engine) :
    nextResult e cursor = .ok false cursor :=
  nextResult_of_stuck (not_live_of_closed h)

theorem read_of_closed (h : cursor.isClosed = true) (e : Engine) :
    read e cursor = .ok false cursor :=
  read_of_stuck ⟨fun hs => not_live_of_closed h (.inr (.inl hs)),
    fun hs => not_live_of_closed h (.inr (.inr hs))⟩

/-- A cursor that has ended stays as it is, but it can still be disposed of. -/
def afterEnd (cursor : Cursor) : CursorStep → Cursor
  | .dispose => { cursor with stage := .disposed }
  | _ => cursor

theorem isClosed_afterEnd (h : cursor.isClosed = true) (step : CursorStep) :
    (cursor.afterEnd step).isClosed = true := by
  cases step
  case dispose => rfl
  all_goals exact h

theorem isClosed_finish (cursor : Cursor) (disposing : Bool) (c : Connection) :
    (cursor.finish disposing c).1.isClosed = true := by
  unfold finish
  by_cases hclosed : cursor.isClosed = true
  · rw [if_pos hclosed]
    cases disposing with
    | true => rfl
    | false => exact hclosed
  · rw [if_neg hclosed]
    cases disposing <;> rfl

end Cursor

/-- The scope is an open cursor whose end is to close the connection. -/
def Scope.closes : Scope → Bool
  | .cursor c => !c.isClosed && c.behavior.closeConnection
  | .transaction _ => false

theorem Connection.endCursor_registry (c : Connection) (ownsBinding closes : Bool) :
    (c.endCursor ownsBinding closes).registry = c.registry := by
  cases closes with
  | false => rfl
  | true =>
    show (c.endExecution ownsBinding).close.registry = _
    unfold close
    split <;> rfl

namespace Session

variable {s : Session} {cursor : Cursor} {outer : List Scope}

/-- A call of a cursor that has ended changes nothing but the cursor, and that only to dispose of it. -/
theorem cursorStep_of_closed (hinner : s.scopes = .cursor cursor :: outer)
    (hclosed : cursor.isClosed = true) {call : CursorStep} (hcall : call.IsCall) :
    (s.cursorStep outer cursor call).2 =
        ⟨s.connection, .cursor (cursor.afterEnd call) :: outer⟩ ∧
      ∀ answer, call.answerEnded? = some answer → (s.cursorStep outer cursor call).1 = answer := by
  obtain ⟨c, scopes⟩ := s
  obtain rfl := hinner
  have hfails : ∀ {α β : Type} {x : Except Error α} {f : α → Except Error β},
      x = .error (.state .cursorClosed) → x >>= f = .error (.state .cursorClosed) :=
    fun h => check_bind_eq_error.mpr (.inl h)
  have hmaps : ∀ {α : Type} {x : Except Error α} {f : α → Reply},
      x = .error (.state .cursorClosed) → f <$> x = .error (.state .cursorClosed) := by
    rintro α _ f rfl
    rfl
  have hvalue : ∀ i, cursor.value c.engine i = .error (.state .cursorClosed) :=
    fun i => Cursor.value_of_error (cursor.rowField_of_closed hclosed i)
  have hconvert : ∀ {α : Type} (column : ColumnRef) {f : Nat → Except Error α},
      (∀ i, f i = .error (.state .cursorClosed)) →
        position cursor column >>= f = .error (.state .cursorClosed) := by
    intro α column f hf
    cases column with
    | ordinal i => exact hf i
    | name name => exact hfails (cursor.ordinal_of_closed hclosed name)
  cases call
  case takeCursorEnd | drain | drop | leak => exact hcall.elim
  case fieldCount | fields | values =>
    refine ⟨rfl, fun _ h => ?_⟩
    cases h
  case nextResult =>
    unfold cursorStep onCursor
    dsimp only
    rw [Cursor.nextResult_of_closed hclosed]
    exact ⟨rfl, fun _ h => Option.some.inj h⟩
  case read =>
    unfold cursorStep onCursor
    dsimp only
    rw [Cursor.read_of_closed hclosed]
    exact ⟨rfl, fun _ h => Option.some.inj h⟩
  case typeName i =>
    unfold cursorStep onConnection
    dsimp only
    rw [Cursor.typeName_of_closed hclosed]
    exact ⟨rfl, fun _ h => Option.some.inj h⟩
  case name i =>
    exact ⟨rfl, fun _ h => (hmaps (cursor.field_of_closed hclosed i)).trans (Option.some.inj h)⟩
  case typeOid i =>
    exact ⟨rfl, fun _ h => (hmaps (cursor.field_of_closed hclosed i)).trans (Option.some.inj h)⟩
  case ordinal name =>
    exact ⟨rfl, fun _ h => (hmaps (cursor.ordinal_of_closed hclosed name)).trans (Option.some.inj h)⟩
  case isNull i =>
    have hnull := Cursor.isNull_of_error (cursor.rowField_of_closed hclosed i)
    exact ⟨rfl, fun _ h => (hmaps hnull).trans (Option.some.inj h)⟩
  case value i => exact ⟨rfl, fun _ h => (hmaps (hvalue i)).trans (Option.some.inj h)⟩
  case convert column target =>
    exact ⟨rfl, fun _ h => (hconvert column fun i => hfails (hfails (hvalue i))).trans
      (Option.some.inj h)⟩
  case convertOptional column target =>
    exact ⟨rfl, fun _ h => (hconvert column fun i => hfails (hfails (hvalue i))).trans
      (Option.some.inj h)⟩
  case close =>
    unfold cursorStep Cursor.close Cursor.finish
    dsimp only
    rw [if_pos hclosed]
    exact ⟨rfl, fun _ h => Option.some.inj h⟩
  case dispose =>
    unfold cursorStep Cursor.dispose Cursor.finish
    dsimp only
    rw [if_pos hclosed]
    exact ⟨rfl, fun _ h => Option.some.inj h⟩

/-- A call of a cursor that has ended is an event of its own. -/
theorem step?_of_closed (hinner : s.scopes = .cursor cursor :: outer)
    (hclosed : cursor.isClosed = true) {call : CursorStep} (hcall : call.IsCall) :
    ∃ reply, s.step? (.cursor call) =
        some (reply, ⟨s.connection, .cursor (cursor.afterEnd call) :: outer⟩) ∧
      ∀ answer, call.answerEnded? = some answer → reply = answer := by
  obtain ⟨hafter, hanswer⟩ := cursorStep_of_closed hinner hclosed hcall
  exact ⟨_, (step?_cursor hinner call).trans (congrArg some (Prod.ext rfl hafter)), hanswer⟩

/-- The event is what comes of a step with a cursor that has ended, on this connection. -/
structure Event.Idle (c : Connection) (ev : Event) : Prop where
  connection : ev.after.connection = c
  reply : ∀ step answer, ev.step = .cursor step → step.answerEnded? = some answer → ev.reply = answer

/-- However often a cursor that has ended is called, the connection stays as it is. -/
theorem run_of_closed (hinner : s.scopes = .cursor cursor :: outer) (hclosed : cursor.isClosed = true)
    {calls : List CursorStep} (hcalls : ∀ call ∈ calls, call.IsCall) :
    (∃ last, s.run (calls.map .cursor) = ⟨s.connection, .cursor last :: outer⟩ ∧
      last.isClosed = true ∧ (.dispose ∈ calls → last.stage = .disposed) ∧
      (.dispose ∉ calls → last.stage = cursor.stage)) ∧
    (s.events (calls.map .cursor)).map Event.step = calls.map .cursor ∧
    ∀ ev ∈ s.events (calls.map .cursor), ev.Idle s.connection := by
  induction calls generalizing s cursor with
  | nil =>
    obtain ⟨c, scopes⟩ := s
    obtain rfl := hinner
    exact ⟨⟨cursor, rfl, hclosed, fun h => absurd h List.not_mem_nil, fun _ => rfl⟩, rfl,
      fun ev hev => absurd hev List.not_mem_nil⟩
  | cons call calls ih =>
    obtain ⟨hcall, hrest⟩ := List.forall_mem_cons.mp hcalls
    obtain ⟨reply, hstep, hanswer⟩ := step?_of_closed hinner hclosed hcall
    obtain ⟨hevents, hrun⟩ := events_of_step? hstep (calls.map .cursor)
    obtain ⟨⟨last, hlast, hlastClosed, hdisposed, hkept⟩, hsteps, hidle⟩ :=
      ih (s := ⟨s.connection, .cursor (cursor.afterEnd call) :: outer⟩) rfl
        (Cursor.isClosed_afterEnd hclosed call) hrest
    rw [List.map_cons, hevents, hrun]
    refine ⟨⟨last, hlast, hlastClosed, fun hmem => ?_, fun hnone => ?_⟩, ?_, ?_⟩
    · by_cases hmem' : .dispose ∈ calls
      -- A later call disposes of the cursor anyhow.  Otherwise this one did, and that is kept.
      · exact hdisposed hmem'
      · obtain rfl : CursorStep.dispose = call := (List.mem_cons.mp hmem).resolve_right hmem'
        exact hkept hmem'
    · obtain ⟨hne, hnone⟩ := not_or.mp (mt List.mem_cons.mpr hnone)
      rw [hkept hnone]
      cases call
      case dispose => exact absurd rfl hne
      all_goals rfl
    · rw [List.map_cons, hsteps]
    · refine List.forall_mem_cons.mpr ⟨⟨rfl, fun step answer heq => ?_⟩, hidle⟩
      cases heq
      exact hanswer answer

/-- A cursor that has ended is let go, which is no end of it any more. -/
theorem drop_of_closed (hinner : s.scopes = .cursor cursor :: outer) (hclosed : cursor.isClosed = true) :
    s.step? (.cursor .drop) = some (.ok (.ended .dropped), ⟨s.connection, outer⟩) := by
  have hleaves : s.cursorStep outer cursor .drop =
      (.ok (.ended .dropped), ⟨cursor.drop s.connection, outer⟩) := rfl
  have hdrop : cursor.drop s.connection = s.connection := by
    unfold Cursor.drop Cursor.dispose Cursor.finish
    rw [if_pos hclosed]
  rw [step?_cursor hinner, hleaves, hdrop]

/-- The end of an open cursor by a call. -/
theorem step?_ends (hinner : s.scopes = .cursor cursor :: outer) {first : CursorStep}
    (hfirst : first = .close ∨ first = .dispose) :
    ∃ disposing, s.step? (.cursor first) =
        some (.ok .done, ⟨(cursor.finish disposing s.connection).2,
          .cursor (cursor.finish disposing s.connection).1 :: outer⟩) ∧
      (disposing = true ↔ first = .dispose) := by
  rw [step?_cursor hinner first]
  rcases hfirst with rfl | rfl
  · exact ⟨false, rfl, nofun, nofun⟩
  · exact ⟨true, rfl, fun _ => rfl, fun _ => rfl⟩

/-- The first end of a cursor gives its connection back, and closes it if that was asked for.  No call
after that, and not the drop of the cursor, has anything to do with the connection, its engine and its
types any more: there are no more results and rows, nothing can be learnt of a column, and a cursor that
has been disposed of once stays disposed of. -/
theorem Reached.ended_once {steps : List Step} (h : Reached steps s)
    (hinner : s.scopes = .cursor cursor :: outer) (hopen : cursor.isClosed = false)
    {first : CursorStep} (hfirst : first = .close ∨ first = .dispose) {calls : List CursorStep}
    (hcalls : ∀ call ∈ calls, call.IsCall) :
    ∃ s₁ last, s.step? (.cursor first) = some (.ok .done, s₁) ∧
      s.connection.phase = .fetching ∧
      s₁.connection.phase = (if cursor.behavior.closeConnection then .closed else .idle) ∧
      s₁.connection.binding = Binding.due s.connection.config.bindOnOpen s₁.connection.phase ∧
      s₁.connection.engine = s.connection.engine ∧ s₁.connection.registry = s.connection.registry ∧
      (s₁.run (calls.map .cursor)).scopes = .cursor last :: outer ∧
      (.dispose ∈ first :: calls → last.stage = .disposed) ∧
      (.dispose ∉ first :: calls → last.stage = .closed) ∧
      let later : List Step := (calls ++ [CursorStep.drop]).map .cursor
      (s₁.events later).map Event.step = later ∧ (∀ ev ∈ s₁.events later, ev.Idle s₁.connection) ∧
      (s₁.run later).scopes = outer := by
  obtain ⟨bindOnOpen, hstands, howns⟩ : Serves s.connection cursor := by
    have hholds := h.holds
    rw [Holds, hinner] at hholds
    cases hholds with
    | free hnested _ => exact absurd hnested not_noCursor_cursor
    | ended closed _ _ => exact absurd (closed.symm.trans hopen) nofun
    | occupied _ _ hserves => exact hserves
  obtain ⟨disposing, hstep, hdisposing⟩ := step?_ends hinner hfirst
  have hnot : ¬ cursor.isClosed = true := Bool.eq_false_iff.mp hopen
  have hended : cursor.finish disposing s.connection =
      ({ cursor with stage := Cursor.ending disposing, onRow := false, pending := false },
        s.connection.endCursor (!bindOnOpen) cursor.behavior.closeConnection) := by
    rw [Cursor.finish, if_neg hnot, howns]
  have hgiven := Connection.endCursor_stands hstands cursor.behavior.closeConnection
  have hengine := cursor.finish_engine disposing s.connection
  rw [hended] at hstep hengine
  generalize hc : s.connection.endCursor (!bindOnOpen) cursor.behavior.closeConnection = c
    at hstep hgiven hengine
  have hclosed : ({ cursor with
      stage := Cursor.ending disposing, onRow := false, pending := false } : Cursor).isClosed = true := by
    cases disposing <;> rfl
  obtain ⟨⟨last, hlast, hlastClosed, hdisposed, hkept⟩, hevents, hidle⟩ :=
    run_of_closed (s := ⟨c, _ :: outer⟩) rfl hclosed hcalls
  have hdrops := drop_of_closed (s := ⟨c, .cursor last :: outer⟩) rfl hlastClosed
  obtain ⟨hdropped, hleft⟩ := events_of_step? hdrops []
  refine ⟨_, last, hstep, hstands.phase_eq, hgiven.phase_eq, ?_, hengine, ?_, ?_, ?_, ?_, ?_⟩
  · rw [hstands.bindOnOpen_eq, hgiven.phase_eq]
    exact hgiven.binding_eq
  · rw [← hc]
    exact Connection.endCursor_registry _ _ _
  · rw [hlast]
  · intro hmem
    by_cases hcall : .dispose ∈ calls
    · exact hdisposed hcall
    · have hfirst : first = .dispose := ((List.mem_cons.mp hmem).resolve_right hcall).symm
      rw [hkept hcall, hdisposing.mpr hfirst]
      rfl
  · intro hnone
    obtain ⟨hne, hcall⟩ := not_or.mp (mt List.mem_cons.mpr hnone)
    have hcloses : disposing = false := Bool.eq_false_iff.mpr fun hd => hne (hdisposing.mp hd).symm
    rw [hkept hcall, hcloses]
    rfl
  · intro later
    have hlater : later = calls.map .cursor ++ [.cursor .drop] := List.map_append
    rw [hlater, events_append, run_append, hlast, hdropped, hleft]
    refine ⟨by rw [List.map_append, hevents]; rfl, fun ev hev => ?_, rfl⟩
    obtain hcall | hdrop := List.mem_append.mp hev
    · exact hidle ev hcall
    · obtain rfl := List.mem_singleton.mp hdrop
      refine ⟨rfl, fun step answer heq => ?_⟩
      cases heq
      exact Option.some.inj

def toResult : List Step :=
  [.connection .openUp, .connection (.openCursor closing), .cursor .nextResult]

/-- A session with a cursor before its first row, whose end is to close the connection. -/
def beforeRow : Session :=
  (start [.script "t" (.rows [Column.ofType "n" Oid.int4 Facets.undeclared] [[.int 1]])] {}).run
    toResult

/-- The cursor is closed, disposed of, read and dropped, and only the first of these closes the
connection. -/
theorem Reached.ended_once_closing :
    Reached toResult beforeRow ∧
      ∃ cursor, beforeRow.scopes = [.cursor cursor] ∧ cursor.isClosed = false ∧
        ∃ s₁, beforeRow.step? (.cursor .close) = some (.ok .done, s₁) ∧
          beforeRow.connection.phase = .fetching ∧ s₁.connection.phase = .closed ∧
          ∀ ev ∈ s₁.events [.cursor .dispose, .cursor .read, .cursor .drop], ev.Idle s₁.connection := by
  have hreached : Reached toResult beforeRow := ⟨_, _, rfl⟩
  have hshows : beforeRow.scopes.map Scope.closes = [true] := by decide +kernel
  obtain ⟨scope, hinner, hopen⟩ := List.map_eq_singleton_iff.mp hshows
  refine ⟨hreached, ?_⟩
  cases scope with
  | transaction t => cases hopen
  | cursor cursor =>
    obtain ⟨hopen, hcloses⟩ : cursor.isClosed = false ∧ cursor.behavior.closeConnection = true := by
      simpa [Scope.closes] using hopen
    have hcalls : ∀ call ∈ [CursorStep.dispose, .read], call.IsCall := by
      simp [CursorStep.IsCall]
    obtain ⟨s₁, _, hstep, hfetching, hphase, -, -, -, -, -, -, -, hidle, -⟩ :=
      hreached.ended_once hinner hopen (.inl rfl) hcalls
    rw [if_pos hcloses] at hphase
    exact ⟨cursor, hinner, hopen, s₁, hstep, hfetching, hphase, hidle⟩

end Session
end SqlSession
