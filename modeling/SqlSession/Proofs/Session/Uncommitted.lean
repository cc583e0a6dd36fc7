import SqlSession.Proofs.Session.Completion

/-!
# Work inside a transaction

While a transaction is open, nothing that is done inside it comes to a commit, unless another
transaction is begun inside: to begin one commits what has been done so far, also what has been done
inside (`Session.committed_only_by_beginning`).  Without that the first commit or rollback after the
beginning of a transaction is its end.
-/

namespace SqlSession

open Effect Engine

/-- A call is there if it is counted. -/
theorem Call.mem_iff_countP {call : Call} {test : Call → Bool}
    (htest : ∀ other, test other = true ↔ other = call) {calls : List Call} :
    call ∈ calls ↔ 0 < calls.countP test := by
  rw [List.countP_pos_iff]
  constructor
  · exact fun h => ⟨call, h, (htest call).mpr rfl⟩
  · rintro ⟨other, h, hcounted⟩
    exact (htest other).mp hcounted ▸ h

theorem Call.isCommit_iff (call : Call) : call.isCommit = true ↔ call = .commit := by
  cases call <;> simp [isCommit]

theorem Call.isRollback_iff (call : Call) : call.isRollback = true ↔ call = .rollback := by
  cases call <;> simp [isRollback]

theorem Call.commit_mem_iff {calls : List Call} :
    .commit ∈ calls ↔ 0 < calls.countP Call.isCommit := mem_iff_countP isCommit_iff

theorem Call.rollback_mem_iff {calls : List Call} :
    .rollback ∈ calls ↔ 0 < calls.countP Call.isRollback := mem_iff_countP isRollback_iff

namespace Session

/-- The transactions that are open in the beginning stay open through all the steps. -/
def Outlasts (s : Session) (steps : List Step) : Prop :=
  ∀ ev ∈ s.events steps, s.transactions <:+ ev.after.transactions

instance (s : Session) (steps : List Step) : Decidable (s.Outlasts steps) :=
  inferInstanceAs (Decidable (∀ ev ∈ s.events steps, _))

variable {s : Session}

/-- What holds in the beginning and after every step that is taken holds in the end. -/
theorem run_of_events {P : Session → Prop} {steps : List Step} (hfirst : P s)
    (h : ∀ ev ∈ s.events steps, P ev.after) : P (s.run steps) := by
  induction steps generalizing s with
  | nil => exact hfirst
  | cons step steps ih =>
    cases hstep : s.step? step with
    | none =>
      obtain ⟨hevents, hrun⟩ := events_of_step?_none hstep steps
      rw [hevents] at h
      rw [hrun]
      exact ih hfirst h
    | some result =>
      obtain ⟨reply, s'⟩ := result
      obtain ⟨hevents, hrun⟩ := events_of_step? hstep steps
      rw [hevents] at h
      obtain ⟨hafter, hrest⟩ := List.forall_mem_cons.mp h
      rw [hrun]
      exact ih hafter hrest

theorem Outlasts.run {steps : List Step} (h : s.Outlasts steps) :
    s.transactions <:+ (s.run steps).transactions :=
  run_of_events (P := fun s' => s.transactions <:+ s'.transactions) (List.suffix_refl _) h

/-- If nothing is begun and as many transactions are open afterwards, then nothing has been completed
either. -/
theorem Balance.nothing {calls : List Call} {deeds : List Deed} {n n' : Nat}
    (h : Balance calls deeds n n') (hn : n ≤ n') (hattempted : .attempted ∉ deeds)
    (hbegun : .begun ∉ deeds) :
    calls.countP Call.isCommit = 0 ∧ calls.countP Call.isRollback = 0 ∧ n' = n := by
  obtain ⟨hcommits, hrollbacks, hopened⟩ := h
  rw [List.count_eq_zero.mpr hbegun] at hcommits hopened
  rw [List.count_eq_zero.mpr hattempted] at hcommits
  omega

namespace Event

variable {ev : Event}

/-- A transaction is begun as far as the commit of what has been done before. -/
def Begins (ev : Event) : Prop :=
  ∃ level, ev.step = .connection (.begin level) ∧ Reaches ev.before.connection level

theorem begins_iff (h : ev.Accounted) :
    ev.Begins ↔ ev.deed? = some .attempted ∨ ev.deed? = some .begun := by
  obtain ⟨before, step, reply, after⟩ := ev
  have hturn := h.turn
  -- Only a beginning is such a deed, and one that has succeeded has come to the commit.
  by_cases hbegin : ∃ level, step = .connection (.begin level)
  · obtain ⟨level, rfl⟩ := hbegin
    have hbegins : Begins ⟨before, .connection (.begin level), reply, after⟩ ↔
        Reaches before.connection level := by
      constructor
      · rintro ⟨_, heq, hreaches⟩
        cases heq
        exact hreaches
      · exact fun hreaches => ⟨level, rfl, hreaches⟩
    rw [hbegins]
    cases reply with
    | error err =>
      simp only [deed?]
      split <;> simp_all
    | ok reply =>
      have hreaches : Reaches before.connection level := by
        cases hturn with
        | begun begins opens => exact (countP_begins begins).2.2 _ rfl
        | other ordinary _ _ _ => exact ordinary.elim
      exact iff_of_true hreaches (.inr rfl)
  · refine iff_of_false ?_ ?_
    · rintro ⟨level, heq, -⟩
      exact hbegin ⟨level, heq⟩
    · unfold deed?
      dsimp only
      split <;> simp_all

/-- A call is a commit if a transaction is begun or committed, and not otherwise. -/
theorem commit_mem_calls_iff (h : ev.Accounted) :
    .commit ∈ ev.calls ↔ ev.Begins ∨ ev.step = .transaction .commit := by
  have hcommitted : ev.deed? = some .committed ↔ ev.step = .transaction .commit := by
    unfold deed?
    split <;> simp_all
  have hcommits := h.turn.balance.commits
  rw [Call.commit_mem_iff, hcommits, begins_iff h, ← hcommitted, or_assoc]
  show 0 < (ev.deed?.toList).count _ + (ev.deed?.toList).count _ + (ev.deed?.toList).count _ ↔ _
  cases ev.deed? with
  | none => simp
  | some deed => cases deed <;> simp

/-- The end of a transaction that is not committed takes one rollback, and those around it stay
open. -/
theorem rollback_of_ended {ending : TransactionStep} (h : ev.Accounted)
    (hstep : ev.step = .transaction ending) (hending : ending ∈ [.rollback, .drop]) :
    ev.calls = [.rollback] ∧ ∃ t, ev.before.transactions = t :: ev.after.transactions := by
  obtain ⟨before, step, reply, after⟩ := ev
  obtain rfl := hstep
  have hturn : Turn before (.transaction ending) reply _ after := h.turn
  generalize Event.calls _ = calls at hturn ⊢
  obtain rfl | rfl := List.mem_pair.mp hending
  · cases hturn with
    | rolledBack ends => exact ⟨rfl, _, ends⟩
    | savepoint savepoint _ => cases savepoint
    | other _ elsewhere _ _ => exact absurd rfl (elsewhere _)
  · cases hturn with
    | dropped ends => exact ⟨rfl, _, ends⟩
    | savepoint savepoint _ => cases savepoint
    | other _ elsewhere _ _ => exact absurd rfl (elsewhere _)

theorem transactions_of_begun {level : IsolationLevel} {reply : Reply} (h : ev.Accounted)
    (hstep : ev.step = .connection (.begin level)) (hreply : ev.reply = .ok reply) :
    ∃ t, ev.after.transactions = t :: ev.before.transactions := by
  obtain ⟨before, step, reply, after⟩ := ev
  obtain rfl := hstep
  obtain rfl := hreply
  have hturn : Turn before (.connection (.begin level)) (.ok reply) _ after := h.turn
  generalize Event.calls _ = calls at hturn
  cases hturn with
  | begun begins opens => exact ⟨_, opens⟩
  | other ordinary _ _ _ => exact ordinary.elim

end Event

variable {c : Connection} {s₁ : Session} {before inside : List Step} {level : IsolationLevel}

/-- As long as a transaction is open, nothing is committed and nothing is rolled back unless another
one is begun. -/
theorem quiet_of_outlasts (hlive : s.Live) {steps : List Step} (hopen : s.Outlasts steps)
    (hnone : ∀ ev ∈ s.events steps, ¬ ev.Begins) :
    .commit ∉ (s.events steps).flatMap Event.calls ∧
      .rollback ∉ (s.events steps).flatMap Event.calls ∧
      (s.run steps).transactions = s.transactions := by
  obtain ⟨-, haccounted, hbalance, -⟩ := run_balance hlive steps
  have hdeed : ∀ ev ∈ s.events steps, ¬ (ev.deed? = some .attempted ∨ ev.deed? = some .begun) :=
    fun ev hev => mt (Event.begins_iff (haccounted ev hev)).mpr (hnone ev hev)
  have hattempted : .attempted ∉ (s.events steps).filterMap Event.deed? := by
    intro hmem
    obtain ⟨ev, hev, hdone⟩ := List.mem_filterMap.mp hmem
    exact hdeed ev hev (.inl hdone)
  have hbegun : .begun ∉ (s.events steps).filterMap Event.deed? := by
    intro hmem
    obtain ⟨ev, hev, hdone⟩ := List.mem_filterMap.mp hmem
    exact hdeed ev hev (.inr hdone)
  have hsuffix := hopen.run
  obtain ⟨hcommits, hrollbacks, hlength⟩ := hbalance.nothing hsuffix.length_le
    hattempted hbegun
  rw [Call.commit_mem_iff, Call.rollback_mem_iff, hcommits, hrollbacks]
  exact ⟨Nat.lt_irrefl 0, Nat.lt_irrefl 0, (hsuffix.eq_of_length hlength.symm).symm⟩

/-- While a transaction is open, an operation adds a commit only by beginning a transaction or by
committing one, and it comes to that only if another one is begun inside.  If none is begun inside,
the transaction is the innermost one all the time, and to roll it back or to let it go takes a rollback
that follows its beginning before any commit. -/
theorem committed_only_by_beginning {reply : Reply} (hs : s = ({ connection := c } : Session).run before)
    (hbegin : s.step? (.connection (.begin level)) = some (.ok reply, s₁))
    (hopen : s₁.Outlasts inside) :
    let events := s₁.events inside
    let calls := events.flatMap Event.calls
    (∀ ev ∈ events, .commit ∈ ev.calls ↔ ev.Begins ∨ ev.step = .transaction .commit) ∧
      (.commit ∈ calls ↔ ∃ ev ∈ events, ev.Begins) ∧
      (.commit ∉ calls → .rollback ∉ calls ∧ (s₁.run inside).transactions = s₁.transactions ∧
        ∀ ending ∈ [TransactionStep.rollback, .drop], ∀ reply s₂,
          (s₁.run inside).step? (.transaction ending) = some (reply, s₂) →
          s₂.transactions = s.transactions ∧
          Event.calls ⟨s₁.run inside, .transaction ending, reply, s₂⟩ = [.rollback] ∧
          ((∀ settings config, .connection (.replace settings config) ∉ inside) →
            Logs s₁.connection.engine s₂.connection.engine (calls ++ [.rollback]))) := by
  have hlive : s.Live := hs ▸ live_run c before
  have hbegun := Event.accounted_of_step? hlive hbegin
  have hlive₁ : s₁.Live := hbegun.turn.live hlive
  obtain ⟨t, hopened⟩ := Event.transactions_of_begun hbegun rfl rfl
  obtain ⟨hlive₂, haccounted, -, hlogs⟩ := run_balance hlive₁ inside
  have hcommit : ∀ ev ∈ s₁.events inside, .commit ∈ ev.calls ↔ _ := fun ev hev =>
    Event.commit_mem_calls_iff (haccounted ev hev)
  have hiff : .commit ∈ (s₁.events inside).flatMap Event.calls ↔
      ∃ ev ∈ s₁.events inside, ev.Begins := by
    constructor
    · intro hmem
      by_contra hnone
      exact (quiet_of_outlasts hlive₁ hopen fun ev hev hbegins => hnone ⟨ev, hev, hbegins⟩).1 hmem
    · rintro ⟨ev, hev, hbegins⟩
      exact List.mem_flatMap.mpr ⟨ev, hev, (hcommit ev hev).mpr (.inl hbegins)⟩
  refine ⟨hcommit, hiff, fun hquiet => ?_⟩
  obtain ⟨-, hrollback, hsame⟩ := quiet_of_outlasts hlive₁ hopen fun ev hev hbegins =>
    hquiet (hiff.mpr ⟨ev, hev, hbegins⟩)
  refine ⟨hrollback, hsame, fun ending hending reply s₂ hstep => ?_⟩
  have hended := Event.accounted_of_step? hlive₂ hstep
  obtain ⟨hcalls, t', ht'⟩ := Event.rollback_of_ended hended rfl hending
  refine ⟨?_, hcalls, fun hnot => ?_⟩
  · dsimp only at hopened ht'
    rw [hsame, hopened] at ht'
    exact (List.cons.inj ht').2.symm
  · have hlast := hended.logs nofun
    rw [hcalls] at hlast
    exact (hlogs hnot).trans hlast

/-- A connection to an engine that has rows to delete. -/
def withRows : Connection :=
  { engine := Engine.ofSettings
      [.script "DELETE FROM t" (.command 3),
        .script "SET TRANSACTION ISOLATION LEVEL READ COMMITTED" (.command 0)] }

def onRows : Session := ({ connection := withRows } : Session).run [.connection .openUp]

def deleteRows : Step := .connection (.nonQuery (.single "DELETE FROM t" [] {}))

def beginAny : Step := .connection (.begin .unspecified)

theorem onRows_begins : ∃ reply, onRows.step? beginAny = some (.ok reply, onRows.step beginAny) := by
  have hbegins : (onRows.step? beginAny).any (fun result => result.1.isOk) = true := by
    decide +kernel
  unfold Session.step
  cases hstep : onRows.step? beginAny with
  | none =>
    rw [hstep] at hbegins
    cases hbegins
  | some result =>
    obtain ⟨_ | reply, s₁⟩ := result
    · rw [hstep] at hbegins
      cases hbegins
    · exact ⟨reply, rfl⟩

/-- After rows have been deleted and another beginning has been refused, the transaction is let go, and its
rollback is the call that comes behind those of the work inside it. -/
theorem committed_only_by_beginning_refused :
    let s₁ := onRows.step beginAny
    let inside : List Step :=
      [deleteRows, .connection (.begin .chaos)]
    let calls := (s₁.events inside).flatMap Event.calls
    (∃ reply, onRows.step? beginAny = some (.ok reply, s₁)) ∧ s₁.Outlasts inside ∧
      .commit ∉ calls ∧
      Logs s₁.connection.engine (s₁.run (inside ++ [.transaction .drop])).connection.engine
        (calls ++ [.rollback]) := by
  intro s₁ inside calls
  have hopen : s₁.Outlasts inside := by decide +kernel
  have hquiet : .commit ∉ calls := by
    rw [Call.commit_mem_iff]
    decide +kernel
  have hrows : onRows = ({ connection := withRows } : Session).run [.connection .openUp] := rfl
  obtain ⟨reply, hbegin⟩ := onRows_begins
  obtain ⟨-, -, hended⟩ := committed_only_by_beginning hrows hbegin hopen
  have hdrops : ((s₁.run inside).step? (.transaction .drop)).isSome = true := by decide +kernel
  obtain ⟨⟨reply', s₂⟩, hdrop⟩ := Option.isSome_iff_exists.mp hdrops
  have hlogs := ((hended hquiet).2.2 .drop (List.mem_cons_of_mem _ List.mem_cons_self) reply' s₂
    hdrop).2.2 (by simp [inside, deleteRows])
  have hrun : s₁.run (inside ++ [.transaction .drop]) = s₂ := by
    rw [run_append]
    exact (events_of_step? hdrop []).2
  rw [hrun]
  exact ⟨⟨reply, hbegin⟩, hopen, hquiet, hlogs⟩

/-- Work inside a transaction can be committed while the transaction is open. -/
theorem not_all_uncommitted :
    ¬ ∀ (c : Connection) (before inside : List Step) (level : IsolationLevel) (reply : Reply)
        (s₁ : Session),
      (({ connection := c } : Session).run before).step? (.connection (.begin level)) =
        some (.ok reply, s₁) →
      s₁.Outlasts inside → .commit ∉ (s₁.events inside).flatMap Event.calls := by
  intro hall
  obtain ⟨reply, hbegin⟩ := onRows_begins
  have hquiet := hall withRows [.connection .openUp] [deleteRows, beginAny] .unspecified reply _
    hbegin (by decide +kernel)
  rw [Call.commit_mem_iff] at hquiet
  exact hquiet (by decide +kernel)

end Session
end SqlSession
