import SqlSession.Proofs.Command.FetchFailure
import SqlSession.Proofs.Session.CurrentRow
import SqlSession.Proofs.Session.Ending

/-!
# A row that cannot be fetched

An engine fails to fetch the row at one position from any table.  A cursor that does not have to fetch
this row goes as if nothing could fail.  The first call that has to fetch it is the error, and the cursor
is consumed: it has no current row and no more results and rows.  Nothing else has changed, and the end
of the cursor gives its connection back as it does after any other walk (`Session.fetch_failure`).
-/

namespace SqlSession

open Effect

/-! ## Where a cursor goes -/

/-- What comes of the moves of a cursor: an answer, and a place to go on from. -/
structure Route (α : Type) where
  nextResult : α → Bool × α
  read : α → Bool × α

namespace Route

variable {α : Type}

/-- The place after a call, which is none once the cursor has ended. -/
def after (r : Route α) : Option α → CursorStep → Option α
  | some a, .nextResult => some (r.nextResult a).2
  | some a, .read => some (r.read a).2
  | _, .close | _, .dispose => none
  | a?, _ => a?

/-- The answer to a move. -/
def answer? (r : Route α) : Option α → CursorStep → Option Bool
  | some a, .nextResult => some (r.nextResult a).1
  | some a, .read => some (r.read a).1
  | none, .nextResult | none, .read => some false
  | _, _ => none

/-- There is no way on. -/
def stuck : Route Unit := ⟨fun _ => (false, ()), fun _ => (false, ())⟩

end Route

/-- The route over plain results. -/
def Walk.route (sheets : List Sheet) : Route Walk :=
  ⟨fun w => w.nextResult sheets, fun w => w.read sheets⟩

namespace CursorStep

/-- The call is one that does not send a query of its own, as the question for the name of a type can. -/
def IsPlain (call : CursorStep) : Prop := call.IsCall ∧ ∀ i, call ≠ .typeName i

/-- The call moves the cursor. -/
def IsMove (call : CursorStep) : Prop := call = .nextResult ∨ call = .read

/-- The call ends the cursor. -/
def IsEnd (call : CursorStep) : Prop := call = .close ∨ call = .dispose

/-- The row that has to be fetched for a call. -/
def fetch? (sheets : List Sheet) : Option Walk → CursorStep → Option Nat
  | some w, .nextResult => w.nextFetch? sheets
  | some w, .read => w.readFetch? sheets
  | _, _ => none

end CursorStep

namespace Route

variable {α : Type} (r : Route α)

theorem after_still (a? : Option α) {call : CursorStep} (hmove : ¬ call.IsMove)
    (hend : ¬ call.IsEnd) : r.after a? call = a? ∧ r.answer? a? call = none := by
  cases call
  case nextResult => exact absurd (.inl rfl) hmove
  case read => exact absurd (.inr rfl) hmove
  case close => exact absurd (.inl rfl) hend
  case dispose => exact absurd (.inr rfl) hend
  all_goals cases a? <;> exact ⟨rfl, rfl⟩

theorem after_end (a? : Option α) {call : CursorStep} (hend : call.IsEnd) :
    r.after a? call = none ∧ r.answer? a? call = none := by
  rcases hend with rfl | rfl <;> cases a? <;> exact ⟨rfl, rfl⟩

theorem after_none (call : CursorStep) : r.after none call = none := by
  cases call <;> rfl

theorem exists_answer (a? : Option α) {call : CursorStep} (hmove : call.IsMove) :
    ∃ more, r.answer? a? call = some more := by
  rcases hmove with rfl | rfl <;> cases a? <;> exact ⟨_, rfl⟩

theorem stuck_answer (u? : Option Unit) {call : CursorStep} (hmove : call.IsMove) :
    stuck.answer? u? call = some false := by
  rcases hmove with rfl | rfl <;> cases u? <;> rfl

/-- Calls lead nowhere as long as none of them ends the cursor. -/
theorem foldl_stuck {calls : List CursorStep} (hends : ∀ call ∈ calls, ¬ call.IsEnd) :
    calls.foldl stuck.after (some ()) = some () := by
  induction calls with
  | nil => rfl
  | cons call calls ih =>
    obtain ⟨hfirst, hrest⟩ := List.forall_mem_cons.mp hends
    have hstays : stuck.after (some ()) call = some () := by
      cases call
      case close => exact absurd (.inl rfl) hfirst
      case dispose => exact absurd (.inr rfl) hfirst
      all_goals rfl
    rw [List.foldl_cons, hstays, ih hrest]

theorem answerEnded?_of_none {r : Route α} {call : CursorStep} {more : Bool}
    (h : r.answer? none call = some more) : call.answerEnded? = some (.ok (.flag more)) := by
  cases call
  case nextResult | read =>
    cases h
    rfl
  all_goals cases h

end Route

/-- No call has to fetch the row. -/
def Clear (sheets : List Sheet) (row : Nat) : Option Walk → List CursorStep → Prop
  | _, [] => True
  | w?, call :: calls =>
    call.fetch? sheets w? ≠ some row ∧ Clear sheets row ((Walk.route sheets).after w? call) calls

instance decidableClear (sheets : List Sheet) (row : Nat) :
    (w? : Option Walk) → (calls : List CursorStep) → Decidable (Clear sheets row w? calls)
  | _, [] => inferInstanceAs (Decidable True)
  | w?, call :: calls =>
    have := decidableClear sheets row ((Walk.route sheets).after w? call) calls
    inferInstanceAs (Decidable (_ ∧ _))

namespace Session

variable {s s' : Session} {cursor origin : Cursor} {base : Connection} {outer : List Scope}
  {α : Type} {P : α → Cursor → Prop} {r : Route α} {a? : Option α}

/-- The cursor moves along a route: `P` says how it stands at each place. -/
structure Follows (P : α → Cursor → Prop) (r : Route α) (e : Engine) : Prop where
  nextResult : ∀ {a cursor}, P a cursor →
    ∃ cursor', Cursor.nextResult e cursor = .ok (r.nextResult a).1 cursor' ∧
      P (r.nextResult a).2 cursor'
  read : ∀ {a cursor}, P a cursor →
    ∃ cursor', Cursor.read e cursor = .ok (r.read a).1 cursor' ∧ P (r.read a).2 cursor'

/-- A session with a cursor that has come to a place, or has ended and given its connection back. -/
inductive Held (P : α → Cursor → Prop) (base : Connection) (origin : Cursor) (outer : List Scope) :
    Option α → Session → Prop
  | placed {a : α} {cursor : Cursor} (place : P a cursor) (frame : cursor.frame = origin.frame) :
      Held P base origin outer (some a) ⟨base, .cursor cursor :: outer⟩
  | ended {cursor : Cursor} (closed : cursor.isClosed = true) :
      Held P base origin outer none
        ⟨base.endCursor origin.ownsBinding origin.behavior.closeConnection, .cursor cursor :: outer⟩

/-- A session stays as it is for a call that neither moves nor ends its cursor. -/
theorem step?_still (hinner : s.scopes = .cursor cursor :: outer) {call : CursorStep}
    (hcall : call.IsPlain) (hmove : ¬ call.IsMove) (hend : ¬ call.IsEnd) :
    ∃ reply, s.step? (.cursor call) = some (reply, s) := by
  obtain ⟨hcall, hnames⟩ := hcall
  refine ⟨(s.cursorStep outer cursor call).1, ?_⟩
  rw [step?_cursor hinner]
  cases call
  case nextResult => exact absurd (.inl rfl) hmove
  case read => exact absurd (.inr rfl) hmove
  case close => exact absurd (.inl rfl) hend
  case dispose => exact absurd (.inr rfl) hend
  case typeName i => exact absurd rfl (hnames i)
  case takeCursorEnd | drain | drop | leak => exact hcall.elim
  all_goals rfl

/-- An open cursor that is ended gives its connection back. -/
theorem Held.of_end (hopen : origin.isClosed = false) (hframe : cursor.frame = origin.frame)
    {call : CursorStep} (hend : call.IsEnd) :
    ∃ s', (⟨base, .cursor cursor :: outer⟩ : Session).step? (.cursor call) = some (.ok .done, s') ∧
      Held P base origin outer none s' := by
  have hinner : (⟨base, .cursor cursor :: outer⟩ : Session).scopes = .cursor cursor :: outer := rfl
  obtain ⟨disposing, hstep, -⟩ := step?_ends hinner hend
  refine ⟨_, hstep, ?_⟩
  rw [Cursor.finish_of_frame hopen hframe]
  exact .ended (Cursor.isClosed_finish _ _ _)

theorem Held.step (hopen : origin.isClosed = false) (hfollows : Follows P r base.engine)
    (h : Held P base origin outer a? s) {call : CursorStep} (hcall : call.IsPlain) :
    ∃ reply s', s.step? (.cursor call) = some (reply, s') ∧
      Held P base origin outer (r.after a? call) s' ∧
      ∀ more, r.answer? a? call = some more → reply = .ok (.flag more) := by
  cases h with
  | @ended cursor closed =>
    -- A cursor that has ended answers moves as the place behind the end of the route does.
    obtain ⟨reply, hstep, hanswer⟩ := step?_of_closed
      (s := ⟨base.endCursor origin.ownsBinding origin.behavior.closeConnection, _ :: outer⟩) rfl closed
      hcall.1
    refine ⟨reply, _, hstep, ?_, fun more hmore => hanswer _ (Route.answerEnded?_of_none hmore)⟩
    rw [r.after_none]
    exact .ended (Cursor.isClosed_afterEnd closed call)
  | @placed a cursor place frame =>
    have hinner : (⟨base, .cursor cursor :: outer⟩ : Session).scopes = .cursor cursor :: outer := rfl
    by_cases hend : call.IsEnd
    · obtain ⟨hafter, hanswer⟩ := r.after_end (some a) hend
      obtain ⟨s', hstep, hheld⟩ := Held.of_end (P := P) hopen frame hend
      refine ⟨_, s', hstep, ?_, fun more hmore => absurd (hanswer.symm.trans hmore) nofun⟩
      rw [hafter]
      exact hheld
    by_cases hmove : call.IsMove
    · rcases hmove with rfl | rfl
      · obtain ⟨cursor', hnext, hplace⟩ := hfollows.nextResult place
        have hkeeps := (Cursor.nextResult_keeps base.engine cursor).of_ok hnext
        refine ⟨.ok (.flag (r.nextResult a).1), ⟨base, .cursor cursor' :: outer⟩, ?_,
          .placed hplace (hkeeps.trans frame), fun more hmore => ?_⟩
        · rw [step?_cursor hinner]
          unfold cursorStep onCursor
          dsimp only
          rw [hnext]
        · cases hmore
          rfl
      · obtain ⟨cursor', hread, hplace⟩ := hfollows.read place
        have hkeeps := (Cursor.read_keeps base.engine cursor).of_ok hread
        refine ⟨.ok (.flag (r.read a).1), ⟨base, .cursor cursor' :: outer⟩, ?_,
          .placed hplace (hkeeps.trans frame), fun more hmore => ?_⟩
        · rw [step?_cursor hinner]
          unfold cursorStep onCursor
          dsimp only
          rw [hread]
        · cases hmore
          rfl
    · obtain ⟨hafter, hanswer⟩ := r.after_still (some a) hmove hend
      obtain ⟨reply, hstep⟩ := step?_still hinner hcall hmove hend
      refine ⟨reply, _, hstep, ?_, fun more hmore => absurd (hanswer.symm.trans hmore) nofun⟩
      rw [hafter]
      exact .placed place frame

/-- The event is a call of a cursor that has come to a place, with the answer that goes with the place. -/
structure Event.Made (P : α → Cursor → Prop) (r : Route α) (base : Connection) (origin : Cursor)
    (outer : List Scope) (call : CursorStep) (ev : Event) : Prop where
  step : ev.step = .cursor call
  taken : ev.before.step? (.cursor call) = some (ev.reply, ev.after)
  held : ∃ a?, Held P base origin outer a? ev.before ∧
    ∀ more, r.answer? a? call = some more → ev.reply = .ok (.flag more)

/-- Calls lead from place to place, and each of them is made at one of these places. -/
theorem Held.run (hopen : origin.isClosed = false) (hfollows : Follows P r base.engine)
    (h : Held P base origin outer a? s) {calls : List CursorStep}
    (hcalls : ∀ call ∈ calls, call.IsPlain) :
    Held P base origin outer (calls.foldl r.after a?) (s.run (calls.map .cursor)) ∧
      (s.events (calls.map .cursor)).map Event.step = calls.map .cursor ∧
      ∀ ev ∈ s.events (calls.map .cursor), ∃ call, ev.Made P r base origin outer call := by
  induction calls generalizing s a? with
  | nil => exact ⟨h, rfl, fun ev hev => absurd hev List.not_mem_nil⟩
  | cons call calls ih =>
    obtain ⟨hcall, hrest⟩ := List.forall_mem_cons.mp hcalls
    obtain ⟨reply, s', hstep, hheld, hanswer⟩ := h.step hopen hfollows hcall
    obtain ⟨hlast, hsteps, hmade⟩ := ih hheld hrest
    obtain ⟨hevents, hrun⟩ := events_of_step? hstep (calls.map .cursor)
    rw [List.map_cons, hevents, hrun, List.foldl_cons]
    exact ⟨hlast, by rw [List.map_cons, hsteps],
      List.forall_mem_cons.mpr ⟨⟨call, rfl, hstep, a?, h, hanswer⟩, hmade⟩⟩

/-- However a cursor is ended, and whether it has been ended before or not, the connection is given
back in the same way. -/
theorem Held.gives_back (hopen : origin.isClosed = false) (h : Held P base origin outer a? s)
    {last : CursorStep} (hlast : last.IsEnd ∨ last = .drop) :
    (s.run [.cursor last]).connection =
      base.endCursor origin.ownsBinding origin.behavior.closeConnection := by
  have hrun : ∀ {reply s'}, s.step? (.cursor last) = some (reply, s') →
      s.run [.cursor last] = s' := fun hstep => (events_of_step? hstep []).2
  cases h with
  | @ended cursor closed =>
    rcases hlast with hend | rfl
    · have hcall : last.IsCall := by rcases hend with rfl | rfl <;> exact trivial
      obtain ⟨reply, hstep, -⟩ := step?_of_closed
        (s := ⟨base.endCursor origin.ownsBinding origin.behavior.closeConnection, _ :: outer⟩) rfl closed
        hcall
      rw [hrun hstep]
    · rw [hrun (drop_of_closed rfl closed)]
  | @placed a cursor place frame =>
    rcases hlast with hend | rfl
    · obtain ⟨s', hstep, hheld⟩ := Held.of_end (P := P) hopen frame hend
      rw [hrun hstep]
      cases hheld
      rfl
    · rw [hrun (step?_cursor rfl .drop)]
      exact Cursor.finish_of_frame hopen frame true base

/-! ## Sessions whose engine fails to fetch a row -/

variable {row : Nat}

/-- The session, whose engine will fail to fetch the row at a position. -/
def armed (row : Nat) (s : Session) : Session := { s with connection := s.connection.armed row }

def Event.armed (row : Nat) (ev : Event) : Event :=
  ⟨ev.before.armed row, ev.step, ev.reply, ev.after.armed row⟩

theorem finish_armed (cursor : Cursor) (disposing : Bool) (c : Connection) :
    cursor.finish disposing (c.armed row) =
      ((cursor.finish disposing c).1, (cursor.finish disposing c).2.armed row) := by
  unfold Cursor.finish
  split
  · rfl
  · rw [Connection.endCursor_armed]

/-- A call that does not move the cursor goes the same. -/
theorem cursorStep_armed {call : CursorStep} (hcall : call.IsPlain) (hmove : ¬ call.IsMove) :
    (s.armed row).cursorStep outer cursor call =
      ((s.cursorStep outer cursor call).1, (s.cursorStep outer cursor call).2.armed row) := by
  obtain ⟨hcall, hnames⟩ := hcall
  cases call
  case nextResult => exact absurd (.inl rfl) hmove
  case read => exact absurd (.inr rfl) hmove
  case typeName i => exact absurd rfl (hnames i)
  case takeCursorEnd | drain | drop | leak => exact hcall.elim
  case close =>
    show endCursor outer (cursor.finish false (s.connection.armed row)) = _
    rw [finish_armed]
    rfl
  case dispose =>
    show endCursor outer (cursor.finish true (s.connection.armed row)) = _
    rw [finish_armed]
    rfl
  all_goals rfl

theorem onCursor_armed {β : Type} {reply : β → Reply} {work work' : CursorM β}
    (h : work' cursor = work cursor) :
    (s.armed row).onCursor outer cursor reply work' =
      ((s.onCursor outer cursor reply work).1, (s.onCursor outer cursor reply work).2.armed row) := by
  unfold onCursor
  rw [h]
  cases work cursor <;> rfl

/-! ## Before the failure -/

variable {sheets : List Sheet} {w? : Option Walk}

/-- A session with a cursor on a walk over plain results, or behind its end. -/
abbrev Walks (sheets : List Sheet) (base : Connection) (origin : Cursor) (outer : List Scope) :
    Option Walk → Session → Prop :=
  Held (fun w cursor => cursor.Tracks base.engine sheets w) base origin outer

theorem follows_walk {e : Engine} (he : e.Undisturbed) :
    Follows (fun w cursor => cursor.Tracks e sheets w) (Walk.route sheets) e where
  nextResult h := h.nextResult he
  read h := h.read he

/-- A call that does not have to fetch the row goes the same. -/
theorem Walks.step?_armed (he : base.engine.Undisturbed) (h : Walks sheets base origin outer w? s)
    {call : CursorStep} (hcall : call.IsPlain) (hclear : call.fetch? sheets w? ≠ some row)
    {reply : Except Error Reply} (hstep : s.step? (.cursor call) = some (reply, s')) :
    (s.armed row).step? (.cursor call) = some (reply, s'.armed row) := by
  obtain ⟨cursor, hinner⟩ : ∃ cursor, s.scopes = .cursor cursor :: outer := by
    cases h <;> exact ⟨_, rfl⟩
  have hinner' : (s.armed row).scopes = .cursor cursor :: outer := hinner
  rw [step?_cursor hinner] at hstep
  rw [step?_cursor hinner']
  have hgoes : (s.armed row).cursorStep outer cursor call =
      ((s.cursorStep outer cursor call).1, (s.cursorStep outer cursor call).2.armed row) := by
    by_cases hmove : call.IsMove
    · cases h with
      | placed place frame =>
        cases hinner
        rcases hmove with rfl | rfl
        · exact onCursor_armed (place.nextResult_armed he hclear)
        · exact onCursor_armed (place.read_armed he hclear)
      | ended closed =>
        cases hinner
        rcases hmove with rfl | rfl
        · exact onCursor_armed
            ((Cursor.nextResult_of_closed closed _).trans (Cursor.nextResult_of_closed closed _).symm)
        · exact onCursor_armed
            ((Cursor.read_of_closed closed _).trans (Cursor.read_of_closed closed _).symm)
    · exact cursorStep_armed hcall hmove
  rw [hgoes, Option.some.inj hstep]

/-- As long as no call has to fetch the row, nobody can tell that it cannot be fetched. -/
theorem Walks.events_armed (hopen : origin.isClosed = false) (he : base.engine.Undisturbed)
    (h : Walks sheets base origin outer w? s) {calls : List CursorStep}
    (hcalls : ∀ call ∈ calls, call.IsPlain) (hclear : Clear sheets row w? calls) :
    (s.armed row).events (calls.map .cursor) = (s.events (calls.map .cursor)).map (Event.armed row) ∧
      (s.armed row).run (calls.map .cursor) = (s.run (calls.map .cursor)).armed row := by
  induction calls generalizing s w? with
  | nil => exact ⟨rfl, rfl⟩
  | cons call calls ih =>
    obtain ⟨hcall, hrest⟩ := List.forall_mem_cons.mp hcalls
    obtain ⟨hfirst, hlater⟩ := hclear
    obtain ⟨reply, s', hstep, hheld, -⟩ := Held.step hopen (follows_walk he) h hcall
    obtain ⟨hevents, hrun⟩ := events_of_step? hstep (calls.map .cursor)
    obtain ⟨hevents', hrun'⟩ :=
      events_of_step? (Walks.step?_armed he h hcall hfirst hstep) (calls.map .cursor)
    obtain ⟨ihevents, ihrun⟩ := ih hheld hrest hlater
    rw [List.map_cons, hevents, hrun, hevents', hrun', ihevents, ihrun]
    exact ⟨rfl, rfl⟩

/-! ## After the failure -/

/-- A session with a cursor that a failure has stopped, or behind its end. -/
abbrev Stops (base : Connection) (origin : Cursor) (outer : List Scope) : Option Unit → Session → Prop :=
  Held (fun _ cursor => cursor.Spent) base origin outer

theorem follows_stuck (e : Engine) : Follows (fun _ cursor => cursor.Spent) Route.stuck e where
  nextResult h := by
    refine ⟨_, Cursor.nextResult_of_stuck ?_, h⟩
    simp [Cursor.Live, h.stage]
  read h := by
    refine ⟨_, Cursor.read_of_stuck ?_, h⟩
    simp [h.stage]

/-- The first call that has to fetch the row is the error, and stops the cursor. -/
theorem Walks.struck (h : Walks sheets base origin outer w? s) {call : CursorStep}
    (hstrikes : call.fetch? sheets w? = some row) :
    ∃ s', (s.armed row).step? (.cursor call) = some (.error (.state (.fetch row)), s') ∧
      s.connection = base ∧ Stops (base.armed row) origin outer (some ()) s' := by
  cases h with
  | ended closed => cases call <;> cases hstrikes
  | @placed w cursor place frame =>
    have hinner : (armed row ⟨base, .cursor cursor :: outer⟩).scopes = .cursor cursor :: outer := rfl
    have hstops : ∀ {work : CursorM Bool} {cursor' : Cursor}, Cursor.Keeps work →
        work cursor = .error (.state (.fetch row)) cursor' → cursor'.Spent →
          (armed row ⟨base, .cursor cursor :: outer⟩).onCursor outer cursor .flag work =
              (.error (.state (.fetch row)), ⟨base.armed row, .cursor cursor' :: outer⟩) ∧
            Stops (base.armed row) origin outer (some ()) ⟨base.armed row, .cursor cursor' :: outer⟩ := by
      intro work cursor' hkeeps hwork hspent
      refine ⟨?_, .placed hspent (((hkeeps cursor).of_error hwork).1.trans frame)⟩
      unfold onCursor
      rw [hwork]
      rfl
    cases call
    case nextResult =>
      obtain ⟨cursor', hnext, hspent⟩ := place.nextResult_struck hstrikes
      obtain ⟨hstep, hstopped⟩ := hstops (Cursor.nextResult_keeps _) hnext hspent
      exact ⟨_, (step?_cursor hinner .nextResult).trans (congrArg some hstep), rfl, hstopped⟩
    case read =>
      obtain ⟨cursor', hread, hspent⟩ := place.read_struck hstrikes
      obtain ⟨hstep, hstopped⟩ := hstops (Cursor.read_keeps _) hread hspent
      exact ⟨_, (step?_cursor hinner .read).trans (congrArg some hstep), rfl, hstopped⟩
    all_goals cases hstrikes

/-- A stopped cursor has no row to look at. -/
theorem Stops.look {u? : Option Unit} (h : Stops base origin outer u? s) {look : CursorStep}
    (hlook : look.LooksAtRow) (hvalues : look ≠ .values) :
    ∃ fault s', s.step? (.cursor look) = some (.error (.state fault), s') := by
  cases h with
  | @placed _ cursor place frame =>
    have hinner : (⟨base, .cursor cursor :: outer⟩ : Session).scopes = .cursor cursor :: outer := rfl
    have hrefused : (⟨base, .cursor cursor :: outer⟩ : Session).cursorStep outer cursor look = _ :=
      cursorStep_of_noRow place.onRow hlook fun heq => absurd heq hvalues
    exact ⟨cursor.noRow, _, (step?_cursor hinner look).trans (congrArg some hrefused)⟩
  | @ended cursor closed =>
    have hcall : look.IsCall := by cases hlook <;> exact trivial
    have hanswer : look.answerEnded? = some (.error (.state .cursorClosed)) := by
      cases hlook
      case values => exact absurd rfl hvalues
      all_goals rfl
    obtain ⟨reply, hstep, hreply⟩ := step?_of_closed
      (s := ⟨base.endCursor origin.ownsBinding origin.behavior.closeConnection, _ :: outer⟩) rfl closed
      hcall
    exact ⟨.cursorClosed, _, by rw [hstep, hreply _ hanswer]⟩

/-- The calls go the same whether the row can be fetched or not, and no move fails. -/
structure Unnoticed (row : Nat) (s : Session) (calls : List CursorStep) : Prop where
  events : (s.armed row).events (calls.map .cursor) = (s.events (calls.map .cursor)).map (Event.armed row)
  taken : (s.events (calls.map .cursor)).map Event.step = calls.map .cursor
  moves : ∀ ev ∈ s.events (calls.map .cursor), ∀ call, ev.step = .cursor call → call.IsMove →
    ∃ more, ev.reply = .ok (.flag more)

/-- The cursor has no row and no more results and rows for these calls, and is consumed after them if
they do not end it. -/
structure Consumed (outer : List Scope) (s : Session) (calls : List CursorStep) : Prop where
  taken : (s.events (calls.map .cursor)).map Event.step = calls.map .cursor
  moves : ∀ ev ∈ s.events (calls.map .cursor), ∀ call, ev.step = .cursor call → call.IsMove →
    ev.reply = .ok (.flag false)
  looks : ∀ ev ∈ s.events (calls.map .cursor), ∀ look, ev.step = .cursor look → look.LooksAtRow →
    look ≠ .values → ∃ fault, ev.reply = .error (.state fault)
  stage : (∀ call ∈ calls, ¬ call.IsEnd) →
    ∃ cursor, (s.run (calls.map .cursor)).scopes = .cursor cursor :: outer ∧
      cursor.stage = .consumed ∧ cursor.onRow = false

theorem Walks.unnoticed (hopen : origin.isClosed = false) (he : base.engine.Undisturbed)
    (h : Walks sheets base origin outer w? s) {calls : List CursorStep}
    (hcalls : ∀ call ∈ calls, call.IsPlain) (hclear : Clear sheets row w? calls) :
    Unnoticed row s calls := by
  obtain ⟨-, htaken, hmade⟩ := Held.run hopen (follows_walk he) h hcalls
  refine ⟨(Walks.events_armed hopen he h hcalls hclear).1, htaken, fun ev hev call hstep hmove => ?_⟩
  obtain ⟨call', hstep', -, b?, -, hanswer⟩ := hmade ev hev
  obtain rfl := Step.cursor.inj (hstep.symm.trans hstep')
  obtain ⟨more, hmore⟩ := (Walk.route sheets).exists_answer b? hmove
  exact ⟨more, hanswer more hmore⟩

theorem Stops.consumed (hopen : origin.isClosed = false) (h : Stops base origin outer (some ()) s)
    {calls : List CursorStep} (hcalls : ∀ call ∈ calls, call.IsPlain) : Consumed outer s calls := by
  obtain ⟨hlast, htaken, hmade⟩ := Held.run hopen (follows_stuck _) h hcalls
  refine ⟨htaken, fun ev hev call hstep hmove => ?_, fun ev hev look hstep hlook hvalues => ?_,
    fun hends => ?_⟩
  · obtain ⟨call', hstep', -, b?, -, hanswer⟩ := hmade ev hev
    obtain rfl := Step.cursor.inj (hstep.symm.trans hstep')
    exact hanswer false (Route.stuck_answer b? hmove)
  · obtain ⟨call', hstep', htook, b?, hheld, -⟩ := hmade ev hev
    obtain rfl := Step.cursor.inj (hstep.symm.trans hstep')
    obtain ⟨fault, s', hrefused⟩ := Stops.look hheld hlook hvalues
    exact ⟨fault, congrArg Prod.fst (Option.some.inj (htook.symm.trans hrefused))⟩
  · rw [Route.foldl_stuck hends] at hlast
    generalize s.run (calls.map .cursor) = s' at hlast ⊢
    cases hlast with
    | placed place frame => exact ⟨_, rfl, place.stage, place.onRow⟩

/-! ## Commands -/

variable {command : Command} {s₁ : Session}

/-- A connection is worked with only outside of cursors. -/
theorem step?_connection_of_some {attempt : ConnectionStep} {result : Except Error Reply × Session}
    (h : s.step? (.connection attempt) = some result) (hscopes : s'.scopes = s.scopes)
    (other : ConnectionStep) :
    result = s.connectionStep attempt ∧
      s'.step? (.connection other) = some (s'.connectionStep other) := by
  obtain ⟨c, scopes⟩ := s
  obtain ⟨c', scopes'⟩ := s'
  obtain rfl := hscopes
  obtain _ | ⟨cursor | t, outer⟩ := scopes'
  · exact ⟨(Option.some.inj h).symm, rfl⟩
  · cases h
  · exact ⟨(Option.some.inj h).symm, rfl⟩

theorem openCursor_of_step? (h : s.step? (.connection (.openCursor command)) = some (.ok .done, s₁)) :
    ∃ cursor c₁, command.openCursor s.connection = .ok cursor c₁ ∧
      s₁ = ⟨c₁, .cursor cursor :: s.scopes⟩ := by
  obtain ⟨henter, -⟩ := step?_connection_of_some h rfl .openUp
  have henter : (.ok .done, s₁) = s.enter .cursor command.openCursor := henter
  unfold enter at henter
  cases hopen : command.openCursor s.connection with
  | error err c₁ =>
    rw [hopen] at henter
    cases henter
  | ok cursor c₁ =>
    rw [hopen] at henter
    exact ⟨cursor, c₁, rfl, congrArg Prod.snd henter⟩

/-- A command that is executed at once fails with the row if it comes to one that it cannot fetch.  Its
connection is given back all the same. -/
structure Executes (blocked : Prop) (row : Nat) (closes : Prop) (s : Session) (attempt : ConnectionStep) :
    Prop where
  done : ∃ reply s', s.step? (.connection attempt) = some (.ok reply, s') ∧
    s.connection.GivenBack s'.connection closes ∧
    (blocked → (s.armed row).step? (.connection attempt) =
      some (.error (.state (.fetch row)), s'.armed row)) ∧
    (¬ blocked → (s.armed row).step? (.connection attempt) = some (.ok reply, s'.armed row))

theorem executes_of_work {reply : α → Reply} {work : ConnectionM α} {attempt : ConnectionStep}
    {blocked closes : Prop} (hopens : s.step? (.connection (.openCursor command)) = some (.ok .done, s₁))
    (hattempt : ∀ s : Session, s.connectionStep attempt = s.onConnection reply work)
    (h : ∃ a c₁, work s.connection = .ok a c₁ ∧ s.connection.GivenBack c₁ closes ∧
      (blocked → work (s.connection.armed row) = .error (.state (.fetch row)) (c₁.armed row)) ∧
      (¬ blocked → work (s.connection.armed row) = .ok a (c₁.armed row))) :
    Executes blocked row closes s attempt := by
  obtain ⟨a, c₁, hwork, hgiven, hstops, hpasses⟩ := h
  have hstep := (step?_connection_of_some hopens (rfl : s.scopes = s.scopes) attempt).2
  have hstep' := (step?_connection_of_some hopens (rfl : (s.armed row).scopes = s.scopes) attempt).2
  rw [hattempt, onConnection_eq] at hstep hstep'
  refine ⟨reply a, { s with connection := c₁ }, ?_, hgiven, fun hblocked => ?_, fun hclear => ?_⟩
  · rw [hstep, hwork]
    rfl
  · rw [hstep', show (s.armed row).connection = s.connection.armed row from rfl, hstops hblocked]
    rfl
  · rw [hstep', show (s.armed row).connection = s.connection.armed row from rfl, hpasses hclear]
    rfl

/-- A row that cannot be fetched consumes a cursor and nothing else. -/
theorem fetch_failure (hrect : s.connection.engine.Rectangular)
    (hundisturbed : s.connection.engine.Undisturbed)
    (hopens : s.step? (.connection (.openCursor command)) = some (.ok .done, s₁)) (row : Nat) :
    ∃ statements sheets, Command.plan s.connection.config.numberNamed command.parts = .ok statements ∧
      sheets = Command.sheets s.connection.engine command.behavior.schemaOnly statements ∧
      (s.armed row).step? (.connection (.openCursor command)) = some (.ok .done, s₁.armed row) ∧
      (∀ calls, (∀ call ∈ calls, CursorStep.IsPlain call) → Clear sheets row (some {}) calls →
        Unnoticed row s₁ calls) ∧
      (∀ before call, (∀ call ∈ before, CursorStep.IsPlain call) → Clear sheets row (some {}) before →
        call.fetch? sheets (before.foldl (Walk.route sheets).after (some {})) = some row →
        ∃ s₂, ((s₁.armed row).run (before.map .cursor)).step? (.cursor call) =
            some (.error (.state (.fetch row)), s₂) ∧
          s₂.connection = s₁.connection.armed row ∧
          ∀ later, (∀ call ∈ later, CursorStep.IsPlain call) → Consumed s.scopes s₂ later ∧
            ∀ walk last, (∀ call ∈ walk, CursorStep.IsPlain call) → last.IsEnd ∨ last = .drop →
              (s₂.run ((later ++ [last]).map .cursor)).connection =
                (s₁.run ((walk ++ [last]).map .cursor)).connection.armed row) ∧
      ∀ attempt, attempt = .scalar command ∨ attempt = .nonQuery command →
        Executes (Walk.Blocked sheets row {}) row (command.behavior.closeConnection = true) s attempt := by
  obtain ⟨cursor, base, hopen, rfl⟩ := openCursor_of_step? hopens
  obtain ⟨statements, hplan, he, htracks⟩ := Command.openCursor_tracks hrect hundisturbed hopen
  generalize hsheets : Command.sheets s.connection.engine command.behavior.schemaOnly statements = sheets
    at htracks
  -- The cursor starts on a walk over the sheets.  Up to the failure it follows the walk, and from the
  -- failure on it follows the route that leads nowhere.
  have hisopen := htracks.isClosed
  have hwalks : Walks sheets base cursor s.scopes (some {}) ⟨base, .cursor cursor :: s.scopes⟩ :=
    .placed htracks rfl
  refine ⟨statements, sheets, hplan, hsheets.symm, ?_, fun calls hcalls hclear => ?_,
    fun before call hbefore hclear hstrikes => ?_, fun attempt hattempt => ?_⟩
  · have hstep := (step?_connection_of_some hopens (rfl : (s.armed row).scopes = s.scopes)
      (.openCursor command)).2
    have hopen' : command.openCursor (s.armed row).connection = .ok cursor (base.armed row) := by
      rw [show (s.armed row).connection = s.connection.armed row from rfl, Command.openCursor_armed,
        hopen]
      rfl
    have henter : (s.armed row).connectionStep (.openCursor command) =
        (.ok .done, armed row ⟨base, .cursor cursor :: s.scopes⟩) := by
      show (s.armed row).enter .cursor command.openCursor = _
      unfold enter
      rw [hopen']
      rfl
    rw [hstep, henter]
  · exact Walks.unnoticed hisopen he hwalks hcalls hclear
  · have hrun := (Walks.events_armed hisopen he hwalks hbefore hclear).2
    have hheld := (Held.run hisopen (follows_walk he) hwalks hbefore).1
    obtain ⟨s₂, hstep, hsame, hstopped⟩ := Walks.struck hheld hstrikes
    rw [hrun]
    refine ⟨s₂, hstep, by cases hstopped; rfl, fun later hlater => ?_⟩
    refine ⟨Stops.consumed hisopen hstopped hlater, fun walk last hwalk hlast => ?_⟩
    have hlater' := (Held.run hisopen (follows_stuck _) hstopped hlater).1
    have hwalk' := (Held.run hisopen (follows_walk he) hwalks hwalk).1
    rw [List.map_append, List.map_append, run_append, run_append]
    show ((s₂.run _).run [.cursor last]).connection = (run _ [.cursor last]).connection.armed row
    rw [Held.gives_back hisopen hlater' hlast, Held.gives_back hisopen hwalk' hlast,
      Connection.endCursor_armed]
  · rcases hattempt with rfl | rfl
    · exact executes_of_work hopens (fun _ => rfl) (Command.withCursor_armed hopen
        Command.scalar_walk_keeps (htracks.scalar_strikes he))
    · exact executes_of_work hopens (fun _ => rfl) (Command.withCursor_armed hopen
        Command.nonQuery_walk_keeps (htracks.nonQuery_strikes he))

/-- A session that answers the query `t` with two rows. -/
def onTwoRows : Session := { connection := Command.twoRows }

def twice : Command := .single "t;t" [] {}

/-- The second row of two cannot be fetched.  The second `read` finds that out, and the connection is
given back as after a walk to the second result. -/
theorem fetch_failure_secondRow :
    onTwoRows.connection.engine.Rectangular ∧ onTwoRows.connection.engine.Undisturbed ∧
      ∃ s₁, onTwoRows.step? (.connection (.openCursor twice)) = some (.ok .done, s₁) ∧
        ∃ s₂, ((s₁.armed 1).run [.cursor .nextResult, .cursor .read]).step? (.cursor .read) =
            some (.error (.state (.fetch 1)), s₂) ∧
          (s₂.run [.cursor .nextResult, .cursor .drop]).connection =
            (s₁.run [.cursor .nextResult, .cursor .nextResult, .cursor .drop]).connection.armed 1 := by
  have hrect : onTwoRows.connection.engine.Rectangular := by
    refine Engine.rectangular_initial.answerWith _ ?_
    intro row hrow
    rcases List.mem_pair.mp hrow with rfl | rfl <;> rfl
  have hundisturbed : onTwoRows.connection.engine.Undisturbed := ⟨rfl, rfl, rfl, rfl⟩
  have hopens : (match twice.openCursor Command.twoRows with
      | .ok _ _ => true
      | .error _ _ => false) = true := by decide +kernel
  have hstrikes : (match Command.plan true twice.parts with
      | .ok statements =>
        let sheets := Command.sheets onTwoRows.connection.engine false statements
        decide (Clear sheets 1 (some {}) [.nextResult, .read] ∧
          CursorStep.fetch? sheets ([CursorStep.nextResult, .read].foldl (Walk.route sheets).after
            (some {})) .read = some 1)
      | .error _ => false) = true := by decide +kernel
  have hplain : ∀ call, call.IsMove → CursorStep.IsPlain call := by
    rintro call (rfl | rfl) <;> exact ⟨trivial, nofun⟩
  refine ⟨hrect, hundisturbed, ?_⟩
  cases hopen : twice.openCursor Command.twoRows with
  | error err c₁ =>
    rw [hopen] at hopens
    cases hopens
  | ok cursor c₁ =>
    have hstep : onTwoRows.step? (.connection (.openCursor twice)) =
        some (.ok .done, ⟨c₁, [.cursor cursor]⟩) := by
      show some (enter onTwoRows .cursor twice.openCursor) = _
      unfold enter
      rw [show onTwoRows.connection = Command.twoRows from rfl, hopen]
      rfl
    obtain ⟨statements, sheets, hplan, rfl, -, -, hfails, -⟩ :=
      fetch_failure hrect hundisturbed hstep 1
    rw [show Command.plan true twice.parts = .ok statements from hplan] at hstrikes
    obtain ⟨hclear, hfetch⟩ := of_decide_eq_true hstrikes
    obtain ⟨s₂, hstruck, -, hafter⟩ := hfails [.nextResult, .read] .read
      (by simpa using ⟨hplain _ (.inl rfl), hplain _ (.inr rfl)⟩) hclear hfetch
    obtain ⟨-, hends⟩ := hafter [.nextResult] (by simpa using hplain _ (.inl rfl))
    exact ⟨_, hstep, s₂, hstruck, hends [.nextResult, .nextResult] .drop
      (by simpa using hplain _ (.inl rfl)) (.inr rfl)⟩

end Session
end SqlSession
