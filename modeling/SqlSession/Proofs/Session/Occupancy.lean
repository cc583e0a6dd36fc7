import SqlSession.Proofs.Connection.Standing
import SqlSession.Session.Run

/-!
# Who occupies the connection of a session

A cursor is never inside another scope, so the connection of a session is either free or occupied by
the cursor that is open on it.  `Session.Holds free busy s` says what the connection is like in either
case.  If the end of the cursor makes the connection free (`Settles`), then every step with a cursor
and every step with a transaction keeps this up.
-/

namespace SqlSession

def NoCursor (scopes : List Scope) : Prop := ∀ cursor, .cursor cursor ∉ scopes

theorem noCursor_nil : NoCursor [] := fun _ => List.not_mem_nil

theorem noCursor_transaction {t : Transaction} {outer : List Scope} :
    NoCursor (.transaction t :: outer) ↔ NoCursor outer := by
  refine forall_congr' fun cursor => not_congr ?_
  rw [List.mem_cons, or_iff_right nofun]

theorem not_noCursor_cursor {cursor : Cursor} {outer : List Scope} :
    ¬ NoCursor (.cursor cursor :: outer) := fun h => h cursor List.mem_cons_self

/-- The connection is as `free` says unless a cursor is open on it, which then is as `busy` says. -/
inductive Occupancy (free : Connection → Prop) (busy : Connection → Cursor → Prop)
    (c : Connection) : List Scope → Prop
  | free {scopes : List Scope} (nested : NoCursor scopes)
      (h : free c) : Occupancy free busy c scopes
  | ended {cursor : Cursor} {outer : List Scope} (closed : cursor.isClosed = true)
      (nested : NoCursor outer) (h : free c) :
      Occupancy free busy c (.cursor cursor :: outer)
  | occupied {cursor : Cursor} {outer : List Scope} (opened : cursor.isClosed = false)
      (nested : NoCursor outer) (h : busy c cursor) :
      Occupancy free busy c (.cursor cursor :: outer)

/-- What is said of connections and cursors is about nothing that moves, and the end of a cursor makes
its connection free. -/
structure Settles (free : Connection → Prop) (busy : Connection → Cursor → Prop) : Prop where
  of_free : ∀ {c c' : Connection}, c'.standing = c.standing → free c → free c'
  of_busy : ∀ {c c' : Connection} {cursor cursor' : Cursor}, c'.standing = c.standing →
    cursor'.frame = cursor.frame → busy c cursor → busy c' cursor'
  ends : ∀ {c : Connection} {cursor : Cursor}, busy c cursor →
    free (c.endCursor cursor.ownsBinding cursor.behavior.closeConnection)

namespace Occupancy

variable {free : Connection → Prop} {busy : Connection → Cursor → Prop} {c c' : Connection}
  {cursor cursor' : Cursor} {scopes outer : List Scope}

theorem of_frame (hsettles : Settles free busy) (hstanding : c'.standing = c.standing)
    (hframe : cursor'.frame = cursor.frame)
    (h : Occupancy free busy c (.cursor cursor :: outer)) :
    Occupancy free busy c' (.cursor cursor' :: outer) := by
  obtain ⟨-, -, -, hclosed⟩ := Cursor.frame_inj hframe
  cases h with
  | free hnested hfree => exact absurd hnested not_noCursor_cursor
  | ended closed hnested hfree =>
    exact .ended (hclosed.trans closed) hnested (hsettles.of_free hstanding hfree)
  | occupied opened hnested hbusy =>
    exact .occupied (hclosed.trans opened) hnested (hsettles.of_busy hstanding hframe hbusy)

theorem of_standing (hsettles : Settles free busy) (hstanding : c'.standing = c.standing)
    (h : Occupancy free busy c scopes) : Occupancy free busy c' scopes := by
  cases h with
  | free hnested hfree => exact .free hnested (hsettles.of_free hstanding hfree)
  | ended closed hnested hfree => exact .ended closed hnested (hsettles.of_free hstanding hfree)
  | occupied opened hnested hbusy => exact .occupied opened hnested (hsettles.of_busy hstanding rfl hbusy)

theorem imp {free' : Connection → Prop} {busy' : Connection → Cursor → Prop}
    (h : Occupancy free busy c scopes) (hfree : ∀ c, free c → free' c)
    (hbusy : ∀ c cursor, busy c cursor → busy' c cursor) : Occupancy free' busy' c scopes := by
  cases h with
  | free hnested h => exact .free hnested (hfree c h)
  | ended closed hnested h => exact .ended closed hnested (hfree c h)
  | occupied opened hnested h => exact .occupied opened hnested (hbusy c _ h)

/-- After the end of a cursor the connection is free, with the cursor still there or without it. -/
theorem finish (hsettles : Settles free busy) (h : Occupancy free busy c (.cursor cursor :: outer))
    (disposing : Bool) :
    Occupancy free busy (cursor.finish disposing c).2
        (.cursor (cursor.finish disposing c).1 :: outer) ∧
      Occupancy free busy (cursor.finish disposing c).2 outer := by
  cases h with
  | free hnested hfree => exact absurd hnested not_noCursor_cursor
  | ended closed hnested hfree =>
    rw [Cursor.finish, if_pos closed]
    refine ⟨.ended ?_ hnested hfree, .free hnested hfree⟩
    cases disposing with
    | true => rfl
    | false => exact closed
  | occupied opened hnested hbusy =>
    have hfree := hsettles.ends hbusy
    rw [Cursor.finish, if_neg (by rw [opened]; exact Bool.false_ne_true)]
    exact ⟨.ended (by cases disposing <;> rfl) hnested hfree, .free hnested hfree⟩

end Occupancy

namespace Session

variable {free : Connection → Prop} {busy : Connection → Cursor → Prop} {c : Connection}
  {cursor : Cursor} {scopes outer : List Scope} {α : Type}

def Holds (free : Connection → Prop) (busy : Connection → Cursor → Prop) (s : Session) : Prop :=
  Occupancy free busy s.connection s.scopes

theorem onConnection_holds (reply : α → Reply) {work : ConnectionM α}
    (h : Effect.Ends (fun c' => Occupancy free busy c' scopes) (fun _ => True) (work c)) :
    Holds free busy ((⟨c, scopes⟩ : Session).onConnection reply work).2 := by
  unfold onConnection
  cases hwork : work c with
  | ok a c' => exact h.of_ok hwork
  | error err c' => exact (h.of_error hwork).1

/-- Work that does not concern the standing of a connection leaves it free or occupied as it was. -/
theorem stays_holds (hsettles : Settles free busy) (h : Occupancy free busy c scopes)
    (reply : α → Reply) {work : ConnectionM α} (hwork : Connection.Stays work) :
    Holds free busy ((⟨c, scopes⟩ : Session).onConnection reply work).2 :=
  onConnection_holds reply ((hwork c).imp (fun _ hsame => h.of_standing hsettles hsame) fun _ => id)

theorem onCursor_holds (hsettles : Settles free busy)
    (h : Occupancy free busy c (.cursor cursor :: outer)) (reply : α → Reply) {work : CursorM α}
    (hwork : Cursor.Keeps work) :
    Holds free busy
      ((⟨c, .cursor cursor :: outer⟩ : Session).onCursor outer cursor reply work).2 := by
  have hkeeps : Effect.Ends _ _ (work cursor) := hwork cursor
  unfold onCursor
  cases hresult : work cursor with
  | ok a cursor' => exact h.of_frame hsettles rfl (hkeeps.of_ok hresult)
  | error err cursor' => exact h.of_frame hsettles rfl (hkeeps.of_error hresult).1

theorem cursorStep_holds (hsettles : Settles free busy)
    (h : Occupancy free busy c (.cursor cursor :: outer)) {step : CursorStep}
    (hleak : step ≠ .leak) :
    Holds free busy ((⟨c, .cursor cursor :: outer⟩ : Session).cursorStep outer cursor step).2 := by
  cases step
  case nextResult => exact onCursor_holds hsettles h .flag (Cursor.nextResult_keeps c.engine)
  case read => exact onCursor_holds hsettles h .flag (Cursor.read_keeps c.engine)
  case drain => exact h.of_frame hsettles rfl (Cursor.drain_frame c.engine cursor)
  case typeName i => exact stays_holds hsettles h .text (cursor.typeName_stays i)
  case takeCursorEnd =>
    have hsame : c.takeCursorEnd.2.standing = c.standing := rfl
    exact h.of_standing hsettles hsame
  case close => exact (h.finish hsettles false).1
  case dispose => exact (h.finish hsettles true).1
  case drop => exact (h.finish hsettles true).2
  case leak => exact absurd rfl hleak
  all_goals exact h

theorem transactionStep_holds (hsettles : Settles free busy) {t : Transaction}
    (h : Occupancy free busy c (.transaction t :: outer)) (step : TransactionStep) :
    Holds free busy ((⟨c, .transaction t :: outer⟩ : Session).transactionStep outer t step).2 := by
  have houter : Holds free busy ⟨c, outer⟩ := by
    cases h with
    | free hnested hfree => exact .free (noCursor_transaction.mp hnested) hfree
  cases step
  case commit => exact stays_holds hsettles houter _ (Transaction.complete_stays _ t)
  case rollback => exact stays_holds hsettles houter _ (Transaction.complete_stays _ t)
  case drop => exact houter.of_standing hsettles (t.drop_standing c)
  case leak => exact houter
  case save name => exact stays_holds hsettles h _ (Transaction.onSavepoint_stays _ name)
  case release name => exact stays_holds hsettles h _ (Transaction.onSavepoint_stays _ name)
  case rollbackTo name => exact stays_holds hsettles h _ (Transaction.onSavepoint_stays _ name)

/-! ## Steps with a cursor -/

variable {s : Session}

/-- A cursor is open in the session. -/
def HasCursor (s : Session) : Prop :=
  ∃ cursor, .cursor cursor ∈ s.scopes ∧ cursor.isClosed = false

theorem step_cursor_holds (hsettles : Settles free busy) (h : Holds free busy s)
    {step : CursorStep} (hleak : step ≠ .leak) : Holds free busy (s.step (.cursor step)) := by
  obtain ⟨c, scopes⟩ := s
  obtain _ | ⟨cursor | t, outer⟩ := scopes
  · exact h
  · exact cursorStep_holds hsettles h hleak
  · exact h

theorem run_cursor_holds (hsettles : Settles free busy) {steps : List CursorStep}
    (hleak : .leak ∉ steps) (h : Holds free busy s) :
    Holds free busy (s.run (steps.map .cursor)) := by
  induction steps generalizing s with
  | nil => exact h
  | cons step steps ih =>
    obtain ⟨hfirst, hrest⟩ := not_or.mp (mt List.mem_cons.mpr hleak)
    exact ih hrest (step_cursor_holds hsettles h (Ne.symm hfirst))

theorem Holds.free_of_not_hasCursor (h : Holds free busy s) (hnone : ¬ s.HasCursor) :
    free s.connection := by
  obtain ⟨c, scopes⟩ := s
  cases h with
  | free _ hfree => exact hfree
  | ended _ _ hfree => exact hfree
  | occupied opened _ _ => exact absurd ⟨_, List.mem_cons_self, opened⟩ hnone

theorem Holds.free_of_noCursor (h : Holds free busy s) (hnested : NoCursor s.scopes) :
    free s.connection :=
  h.free_of_not_hasCursor fun ⟨cursor, hmem, _⟩ => hnested cursor hmem

/-- Work with the connection has to wait until there is no cursor any more. -/
theorem step?_connection (h : Holds free busy s) (step : ConnectionStep) :
    s.step? (.connection step) = none ∨
      NoCursor s.scopes ∧ s.step? (.connection step) = some (s.connectionStep step) := by
  obtain ⟨c, scopes⟩ := s
  obtain _ | ⟨cursor | t, outer⟩ := scopes
  · exact .inr ⟨noCursor_nil, rfl⟩
  · exact .inl rfl
  · cases h with
    | free hnested _ => exact .inr ⟨hnested, rfl⟩

end Session
end SqlSession
