import SqlSession.Proofs.Cursor.FetchFailure
import SqlSession.Proofs.Cursor.Opened
import SqlSession.Proofs.Session.Standing

/-!
# Commands whose rows cannot be fetched

A command that is executed for a value or for a number of rows goes over all of its results, and fetches
the first row of each.  If that row cannot be fetched, the command fails with just this error, and its
connection is given back as if it had succeeded.
-/

namespace SqlSession

open Effect

variable {row : Nat} {c c' : Connection} {cursor : Cursor} {command : Command}

namespace Connection

theorem served_armed (closes : Bool) (e : Engine) :
    (c.armed row).served closes (e.armed row) = (c.served closes e).armed row := by
  cases closes with
  | false => rfl
  | true =>
    have hphase : (c.armed row).phase = c.phase := rfl
    unfold served close
    rw [if_pos rfl, if_pos rfl, hphase]
    split <;> rfl

theorem givenBack_served (hidle : c.phase = .idle) (closes : Bool) (e : Engine) :
    c.GivenBack (c.served closes e) (closes = true) := by
  cases closes with
  | false => exact ⟨nofun, fun _ => ⟨hidle, rfl⟩⟩
  | true =>
    refine ⟨fun _ => ?_, fun hnot => absurd rfl hnot⟩
    have hopen : ¬ c.phase = .closed := by
      rw [hidle]
      nofun
    unfold served close
    rw [if_pos rfl, if_neg hopen]
    exact ⟨rfl, rfl⟩

end Connection

namespace Command

/-- A command that walks its cursor itself succeeds, and if a row that it needs cannot be fetched, it fails
with that and leaves its connection in the same way. -/
theorem withCursor_armed {α : Type} {blocked : Prop} {after : α → Cursor → Prop}
    {walk : Engine → CursorM α} (hopen : command.openCursor c = .ok cursor c')
    (hkeeps : ∀ e, Cursor.Keeps (walk e)) (h : Cursor.Struck row c'.engine blocked after walk cursor) :
    ∃ a c₁, command.withCursor walk c = .ok a c₁ ∧
      c.GivenBack c₁ (command.behavior.closeConnection = true) ∧
      (blocked → command.withCursor walk (c.armed row) =
        .error (.state (.fetch row)) (c₁.armed row)) ∧
      (¬ blocked → command.withCursor walk (c.armed row) = .ok a (c₁.armed row)) := by
  have hopen' : command.openCursor (c.armed row) = .ok cursor (c'.armed row) := by
    rw [openCursor_armed, hopen]
    rfl
  obtain ⟨hidle, hends⟩ := withCursor_ends hkeeps hopen
  have hends' := (withCursor_ends hkeeps hopen').2
  have hserved : (c.armed row).served command.behavior.closeConnection (c'.engine.armed row) = _ :=
    Connection.served_armed _ _
  obtain ⟨a, cursor', hwalk, -⟩ := h.succeeds
  have hok := withCursor_of_ok hopen hwalk
  have hlast := hends.of_ok hok
  refine ⟨a, _, hok, ?_, fun hblocked => ?_, fun hclear => ?_⟩
  · rw [hlast]
    exact Connection.givenBack_served hidle _ _
  · obtain ⟨cursor'', hwalk'⟩ := h.stops hblocked
    have herror : command.withCursor walk (c.armed row) =
        .error (.state (.fetch row)) (cursor''.drop (c'.armed row)) := by
      unfold withCursor
      rw [hopen']
      dsimp only
      rw [show (c'.armed row).engine = c'.engine.armed row from rfl, hwalk']
    rw [herror, (hends'.of_error herror).1, hlast, ← hserved]
    rfl
  · have hok' := withCursor_of_ok hopen' ((h.passes hclear).trans hwalk)
    rw [hok', hends'.of_ok hok', hlast, ← hserved]
    rfl

end Command
end SqlSession
