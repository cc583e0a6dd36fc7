import SqlSession.Proofs.Session.Occupancy

/-!
# The connection of a session between two steps

However a session has come about, its connection executes nothing and is bound as its phase says, and
it is fetching as long as a cursor is open on it.  A command gives the connection back with its former
binding, or closed if the end of the cursor was to close it (`Session.Reached.connection_standing`).
-/

namespace SqlSession

/-- The connection after a command: closed if `closes` says so, and as it was before otherwise. -/
structure Connection.GivenBack (c c' : Connection) (closes : Prop) : Prop where
  closed : closes → c'.phase = .closed ∧ c'.binding = .unbound
  idle : ¬ closes → c'.phase = .idle ∧ c'.binding = c.binding

/-- The command gets a cursor on this connection. -/
def Command.Opens (command : Command) (c : Connection) : Prop :=
  ∃ cursor c', command.openCursor c = .ok cursor c'

/-- The steps that execute a command. -/
inductive ConnectionStep.Executes (command : Command) : ConnectionStep → Prop
  | openCursor : Executes command (.openCursor command)
  | scalar : Executes command (.scalar command)
  | nonQuery : Executes command (.nonQuery command)

namespace Session

/-! ## One command

The cursor of a command is the only one that can be open on its connection until it has ended. -/

/-- The connection after the command. -/
def Ended (bindOnOpen closes : Bool) (c : Connection) : Prop :=
  c.Stands bindOnOpen (if closes then .closed else .idle)

/-- The connection during the command, with the cursor of the command. -/
def Open (bindOnOpen closes : Bool) (c : Connection) (cursor : Cursor) : Prop :=
  c.Stands bindOnOpen .fetching ∧ cursor.ownsBinding = !bindOnOpen ∧
    cursor.behavior.closeConnection = closes

theorem settles_command (bindOnOpen closes : Bool) :
    Settles (Ended bindOnOpen closes) (Open bindOnOpen closes) where
  of_free hstanding h := h.of_standing hstanding
  of_busy hstanding hframe h := by
    obtain ⟨-, hbehavior, howns, -⟩ := Cursor.frame_inj hframe
    obtain ⟨hstands, hown, hcloses⟩ := h
    exact ⟨hstands.of_standing hstanding, howns.trans hown, by rw [hbehavior, hcloses]⟩
  ends h := by
    obtain ⟨hstands, hown, hcloses⟩ := h
    rw [hown, hcloses]
    exact Connection.endCursor_stands hstands closes

variable {command : Command} {attempt : ConnectionStep} {c c' : Connection} {scopes : List Scope}
  {bindOnOpen : Bool}

theorem onConnection_of_error {α : Type} {err : Error} {reply : α → Reply} {work : ConnectionM α}
    (h : work c = .error err c') :
    ((⟨c, scopes⟩ : Session).onConnection reply work).2 = ⟨c', scopes⟩ := by
  unfold onConnection
  rw [h]

theorem executes_of_error {err : Error} (hattempt : attempt.Executes command)
    (h : command.openCursor c = .error err c') :
    ((⟨c, scopes⟩ : Session).connectionStep attempt).2 = ⟨c', scopes⟩ := by
  cases hattempt with
  | openCursor =>
    show (enter _ _ _).2 = _
    unfold enter
    rw [h]
  | scalar => exact onConnection_of_error (Command.withCursor_of_error h)
  | nonQuery => exact onConnection_of_error (Command.withCursor_of_error h)

theorem executes_of_ok {cursor : Cursor} (hattempt : attempt.Executes command)
    (h : command.openCursor c = .ok cursor c') (hc : c.Stands bindOnOpen .idle)
    (hnested : NoCursor scopes) :
    Holds (Ended bindOnOpen command.behavior.closeConnection)
      (Open bindOnOpen command.behavior.closeConnection)
      ((⟨c, scopes⟩ : Session).connectionStep attempt).2 := by
  have hserved : ∀ e, Occupancy (Ended bindOnOpen command.behavior.closeConnection)
      (Open bindOnOpen command.behavior.closeConnection)
      (c.served command.behavior.closeConnection e) scopes :=
    fun e => .free hnested (Connection.served_stands hc _ e)
  cases hattempt with
  | openCursor =>
    show Holds _ _ (enter _ _ _).2
    unfold enter
    rw [h]
    obtain ⟨-, statements, outcomes, e, -, -, rfl, rfl⟩ := Command.openCursor_eq_ok h
    obtain ⟨hfetching, howns⟩ := Connection.fetching_stands hc e
    exact .occupied rfl hnested ⟨hfetching, howns, rfl⟩
  | scalar =>
    obtain ⟨-, hends⟩ := Command.withCursor_ends Command.scalar_walk_keeps h
    exact onConnection_holds .scalar (hends.imp (fun _ hc' => hc' ▸ hserved _) fun _ _ => trivial)
  | nonQuery =>
    obtain ⟨-, hends⟩ := Command.withCursor_ends Command.nonQuery_walk_keeps h
    exact onConnection_holds .affected (hends.imp (fun _ hc' => hc' ▸ hserved _) fun _ _ => trivial)

/-- Only the end of a cursor that the command has got closes the connection. -/
theorem executes_holds (hattempt : attempt.Executes command) (hc : c.Stands bindOnOpen .idle)
    (hnested : NoCursor scopes) :
    ∃ closes : Bool, (closes = true ↔ command.Opens c ∧ command.behavior.closeConnection = true) ∧
      Holds (Ended bindOnOpen closes) (Open bindOnOpen closes)
        ((⟨c, scopes⟩ : Session).connectionStep attempt).2 := by
  cases hopen : command.openCursor c with
  | ok cursor c' =>
    exact ⟨_, ⟨fun hcloses => ⟨⟨cursor, c', hopen⟩, hcloses⟩, And.right⟩,
      executes_of_ok hattempt hopen hc hnested⟩
  | error err c' =>
    refine ⟨false, ⟨nofun, ?_⟩, ?_⟩
    · rintro ⟨⟨cursor, c'', hopens⟩, -⟩
      rw [hopen] at hopens
      cases hopens
    · rw [executes_of_error hattempt hopen]
      exact .free hnested (hc.of_standing (Command.openCursor_standing hopen))

/-! ## All steps -/

/-- A connection between two steps.  It is fetching without a cursor only if one was forgotten. -/
def Rests (forgot : Prop) (c : Connection) : Prop :=
  ∃ bindOnOpen phase, c.Stands bindOnOpen phase ∧ phase ≠ .executing ∧
    (phase = .fetching → forgot)

/-- A connection between two steps, with the cursor that is open on it. -/
def Serves (c : Connection) (cursor : Cursor) : Prop :=
  ∃ bindOnOpen, c.Stands bindOnOpen .fetching ∧ cursor.ownsBinding = !bindOnOpen

variable {forgot : Prop}

theorem rests_of_ended {closes : Bool} (h : Ended bindOnOpen closes c) : Rests forgot c :=
  ⟨bindOnOpen, _, h, by cases closes <;> nofun, by cases closes <;> nofun⟩

theorem serves_of_open {closes : Bool} {cursor : Cursor} (h : Open bindOnOpen closes c cursor) :
    Serves c cursor :=
  ⟨bindOnOpen, h.1, h.2.1⟩

theorem settles_session (forgot : Prop) : Settles (Rests forgot) Serves where
  of_free hstanding h := by
    obtain ⟨bindOnOpen, phase, hstands, hrest⟩ := h
    exact ⟨bindOnOpen, phase, hstands.of_standing hstanding, hrest⟩
  of_busy hstanding hframe h := by
    obtain ⟨bindOnOpen, hstands, hown⟩ := h
    exact ⟨bindOnOpen, hstands.of_standing hstanding, (Cursor.frame_inj hframe).2.2.1.trans hown⟩
  ends h := by
    obtain ⟨bindOnOpen, hstands, hown⟩ := h
    rw [hown]
    exact rests_of_ended (Connection.endCursor_stands hstands _)

theorem executes_rests (hattempt : attempt.Executes command) (hc : Rests forgot c)
    (hnested : NoCursor scopes) :
    Holds (Rests forgot) Serves ((⟨c, scopes⟩ : Session).connectionStep attempt).2 := by
  cases hopen : command.openCursor c with
  | error err c' =>
    rw [executes_of_error hattempt hopen]
    exact .free hnested ((settles_session forgot).of_free (Command.openCursor_standing hopen) hc)
  | ok cursor c' =>
    obtain ⟨bindOnOpen, phase, hstands, -⟩ := hc
    obtain ⟨hidle, -⟩ := Command.openCursor_eq_ok hopen
    obtain rfl := hstands.phase_eq.symm.trans hidle
    exact (executes_of_ok hattempt hopen hstands hnested).imp (fun _ => rests_of_ended)
      fun _ _ => serves_of_open

theorem openUp_rests (hc : Rests forgot c) :
    Effect.Ends (Rests forgot) (fun _ => True) (Connection.openUp c) := by
  obtain ⟨bindOnOpen, phase, hstands, hrest⟩ := hc
  by_cases hclosed : c.phase = .closed
  · obtain rfl := hstands.phase_eq.symm.trans hclosed
    obtain ⟨c', hopen, hidle⟩ := Connection.openUp_stands hstands
    rw [hopen]
    exact ⟨bindOnOpen, .idle, hidle, nofun, nofun⟩
  · rw [Connection.openUp_of_open hclosed]
    exact ⟨⟨bindOnOpen, phase, hstands, hrest⟩, trivial⟩

theorem begin_rests (hc : Rests forgot c) (hnested : NoCursor scopes) (level : IsolationLevel) :
    Holds (Rests forgot) Serves
      ((⟨c, scopes⟩ : Session).enter .transaction (Transaction.start level)).2 := by
  have hstays : Effect.Ends _ _ (Transaction.start level c) := Transaction.start_stays level c
  unfold enter
  cases hstart : Transaction.start level c with
  | ok t c' =>
    exact .free (noCursor_transaction.mpr hnested)
      ((settles_session forgot).of_free (hstays.of_ok hstart) hc)
  | error err c' =>
    exact .free hnested ((settles_session forgot).of_free (hstays.of_error hstart).1 hc)

theorem connectionStep_holds (hc : Rests forgot c) (hnested : NoCursor scopes) (step : ConnectionStep) :
    Holds (Rests forgot) Serves ((⟨c, scopes⟩ : Session).connectionStep step).2 := by
  have hsettles := settles_session forgot
  have hholds : ∀ {c'}, Rests forgot c' → Occupancy (Rests forgot) Serves c' scopes :=
    fun h => .free hnested h
  cases step
  case openCursor command => exact executes_rests .openCursor hc hnested
  case scalar command => exact executes_rests .scalar hc hnested
  case nonQuery command => exact executes_rests .nonQuery hc hnested
  case openUp =>
    exact onConnection_holds _ ((openUp_rests hc).imp (fun _ => hholds) fun _ => id)
  case close =>
    obtain ⟨bindOnOpen, phase, hstands, -⟩ := hc
    exact hholds ⟨bindOnOpen, .closed, Connection.close_stands hstands, nofun, nofun⟩
  case replace settings config =>
    exact hholds ⟨config.bindOnOpen, .closed, rfl, nofun, nofun⟩
  case configure setting => exact hholds (hsettles.of_free rfl hc)
  case takeCursorEnd =>
    have hsame : c.takeCursorEnd.2.standing = c.standing := rfl
    exact hholds (hsettles.of_free hsame hc)
  case loadTypes =>
    exact stays_holds hsettles (hholds hc) _
      ((Connection.onRegistry_stays _).bind fun _ => Connection.get_stays.bind fun _ =>
        Connection.pure_stays _)
  case resolveType oid => exact stays_holds hsettles (hholds hc) _ (Connection.onRegistry_stays _)
  case send statements => exact stays_holds hsettles (hholds hc) _ (Connection.onEngine_stays _)
  case begin level => exact begin_rests hc hnested level
  case describe => exact hholds hc
  case executedQueries => exact hholds hc
  case lookupType oid => exact hholds hc

variable {s : Session}

/-- A cursor that has been forgotten leaves its connection fetching. -/
theorem leak_holds {cursor : Cursor} {outer : List Scope} (hforgot : forgot)
    (h : Occupancy (Rests forgot) Serves c (.cursor cursor :: outer)) :
    Occupancy (Rests forgot) Serves c outer := by
  cases h with
  | free hnested _ => exact absurd hnested not_noCursor_cursor
  | ended _ hnested hrests => exact .free hnested hrests
  | occupied _ hnested hserves =>
    obtain ⟨bindOnOpen, hstands, -⟩ := hserves
    exact .free hnested ⟨bindOnOpen, .fetching, hstands, nofun, fun _ => hforgot⟩

theorem step_holds (h : Holds (Rests forgot) Serves s) {step : Step}
    (hleak : step = .cursor .leak → forgot) : Holds (Rests forgot) Serves (s.step step) := by
  have hsettles := settles_session forgot
  obtain ⟨c, scopes⟩ := s
  cases step with
  | cursor step =>
    by_cases hstep : step = .leak
    · subst hstep
      obtain _ | ⟨cursor | t, outer⟩ := scopes
      · exact h
      · exact leak_holds (hleak rfl) h
      · exact h
    · exact step_cursor_holds hsettles h hstep
  | transaction step =>
    obtain _ | ⟨cursor | t, outer⟩ := scopes
    · exact h
    · exact h
    · exact transactionStep_holds hsettles h step
  | connection step =>
    unfold Session.step
    obtain hnone | ⟨hnested, hstep⟩ := step?_connection h step
    · rw [hnone]
      exact h
    · rw [hstep]
      exact connectionStep_holds (h.free_of_noCursor hnested) hnested step

theorem run_holds {steps : List Step} (hleak : .cursor .leak ∈ steps → forgot)
    (h : Holds (Rests forgot) Serves s) : Holds (Rests forgot) Serves (s.run steps) := by
  induction steps generalizing s with
  | nil => exact h
  | cons step steps ih =>
    refine ih (fun hmem => hleak (List.mem_cons_of_mem _ hmem)) (step_holds h fun hstep => ?_)
    exact hleak (hstep ▸ List.mem_cons_self)

theorem start_holds (settings : List Setting) (config : Config) :
    Holds (Rests forgot) Serves (start settings config) :=
  .free noCursor_nil ⟨config.bindOnOpen, .closed, rfl, nofun, nofun⟩

/-! ## Sessions that have come about -/

/-- The session has come about by these steps, from a closed connection to a new engine. -/
def Reached (steps : List Step) (s : Session) : Prop :=
  ∃ settings config, s = (start settings config).run steps

theorem Reached.holds {steps : List Step} (h : Reached steps s) :
    Holds (Rests (.cursor .leak ∈ steps)) Serves s := by
  obtain ⟨settings, config, rfl⟩ := h
  exact run_holds id (start_holds settings config)

theorem holds_stands (h : Holds (Rests forgot) Serves s) :
    ∃ bindOnOpen phase, s.connection.Stands bindOnOpen phase ∧ phase ≠ .executing ∧
      (s.HasCursor → phase = .fetching) ∧ (phase = .fetching → s.HasCursor ∨ forgot) := by
  obtain ⟨c, scopes⟩ := s
  cases h with
  | free hnested hrests =>
    obtain ⟨bindOnOpen, phase, hstands, hphase, hfetching⟩ := hrests
    refine ⟨bindOnOpen, phase, hstands, hphase, ?_, fun hf => .inr (hfetching hf)⟩
    rintro ⟨cursor, hmem, -⟩
    exact absurd hmem (hnested cursor)
  | ended closed hnested hrests =>
    obtain ⟨bindOnOpen, phase, hstands, hphase, hfetching⟩ := hrests
    refine ⟨bindOnOpen, phase, hstands, hphase, ?_, fun hf => .inr (hfetching hf)⟩
    rintro ⟨cursor, hmem, hopened⟩
    obtain hfirst | hrest := List.mem_cons.mp hmem
    · cases hfirst
      rw [closed] at hopened
      cases hopened
    · exact absurd hrest (hnested cursor)
  | occupied opened hnested hserves =>
    obtain ⟨bindOnOpen, hstands, -⟩ := hserves
    exact ⟨bindOnOpen, .fetching, hstands, nofun, fun _ => rfl,
      fun _ => .inl ⟨_, List.mem_cons_self, opened⟩⟩

theorem givenBack_of_ended {closes : Bool} {closed : Prop} (hcloses : closes = true ↔ closed)
    (hc : c.Stands bindOnOpen .idle) (h : Ended bindOnOpen closes c') : c.GivenBack c' closed := by
  constructor
  · intro hclosed
    obtain rfl := hcloses.mpr hclosed
    exact ⟨h.phase_eq, h.binding_eq⟩
  · intro hopen
    obtain rfl := Bool.eq_false_iff.mpr (mt hcloses.mp hopen)
    exact ⟨h.phase_eq, h.binding_eq.trans hc.binding_eq.symm⟩

/-- The connection of a session is never left executing, its binding goes with its phase, and it is
fetching as long as a cursor is open on it.  When it is idle, any way of executing a command and any
use of the cursor give it back once no cursor is open any more. -/
theorem Reached.connection_standing {steps : List Step} (h : Reached steps s) :
    s.connection.phase ≠ .executing ∧
    s.connection.binding = Binding.due s.connection.config.bindOnOpen s.connection.phase ∧
    (s.HasCursor → s.connection.phase = .fetching) ∧
    (s.connection.phase = .fetching → s.HasCursor ∨ .cursor .leak ∈ steps) ∧
    ∀ command attempt reply s₁ (uses : List CursorStep),
      ConnectionStep.Executes command attempt → s.connection.phase = .idle →
      s.step? (.connection attempt) = some (reply, s₁) →
      .leak ∉ uses → ¬ (s₁.run (uses.map .cursor)).HasCursor →
      s.connection.GivenBack (s₁.run (uses.map .cursor)).connection
        (command.Opens s.connection ∧ command.behavior.closeConnection = true) := by
  obtain ⟨bindOnOpen, phase, hstands, hphase, hcursor, hfetching⟩ := holds_stands h.holds
  refine ⟨?_, ?_, ?_, ?_, ?_⟩
  · rw [hstands.phase_eq]
    exact hphase
  · rw [hstands.phase_eq, hstands.bindOnOpen_eq]
    exact hstands.binding_eq
  · exact fun hs => hstands.phase_eq.trans (hcursor hs)
  · exact fun hs => hfetching (hstands.phase_eq.symm.trans hs)
  · intro command attempt reply s₁ uses hattempt hidle hstep hleak hnone
    obtain hnot | ⟨hnested, hdone⟩ := step?_connection h.holds attempt
    · rw [hnot] at hstep
      cases hstep
    obtain rfl : (s.connectionStep attempt).2 = s₁ :=
      congrArg Prod.snd (Option.some.inj (hdone.symm.trans hstep))
    obtain rfl := hstands.phase_eq.symm.trans hidle
    obtain ⟨closes, hcloses, hholds⟩ := executes_holds hattempt hstands hnested
    have hrun := run_cursor_holds (settles_command bindOnOpen closes) hleak hholds
    exact givenBack_of_ended hcloses hstands (hrun.free_of_not_hasCursor hnone)

def closing : Command := .single "t" [] { closeConnection := true }

def openOnT : Session :=
  (start [.script "t" (.command 1)] { bindOnOpen := false }).run [.connection .openUp]

/-- A cursor that is to close its connection does so when it is dropped, with nothing read. -/
theorem Reached.connection_standing_closing :
    Reached [.connection .openUp] openOnT ∧ openOnT.connection.phase = .idle ∧
      ∃ s₁, openOnT.step? (.connection (.openCursor closing)) = some (.ok .done, s₁) ∧
        (s₁.run [.cursor .drop]).connection.phase = .closed ∧
        (s₁.run [.cursor .drop]).connection.binding = .unbound := by
  have hreached : Reached [.connection .openUp] openOnT := ⟨_, _, rfl⟩
  have hidle : openOnT.connection.phase = .idle := rfl
  have hopens : (match closing.openCursor openOnT.connection with
      | .ok _ _ => true
      | .error _ _ => false) = true := by decide +kernel
  refine ⟨hreached, hidle, ?_⟩
  cases hopen : closing.openCursor openOnT.connection with
  | error err c' =>
    rw [hopen] at hopens
    cases hopens
  | ok cursor c' =>
    have hstep : openOnT.step? (.connection (.openCursor closing)) =
        some (.ok .done, ⟨c', [.cursor cursor]⟩) := by
      show some (enter openOnT .cursor closing.openCursor) = _
      unfold enter
      rw [hopen]
      rfl
    have hnone : ¬ (run ⟨c', [.cursor cursor]⟩ [.cursor .drop]).HasCursor := by
      rintro ⟨_, hmem, -⟩
      exact absurd hmem List.not_mem_nil
    have hgiven := hreached.connection_standing.2.2.2.2 closing _ _ _ [.drop] .openCursor hidle hstep
      (by simp) hnone
    exact ⟨_, hstep, hgiven.closed ⟨⟨cursor, c', hopen⟩, rfl⟩⟩

end Session
end SqlSession
