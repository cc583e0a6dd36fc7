import SqlSession.Engine.Setting
import SqlSession.Proofs.Command.Dispatch
import SqlSession.Proofs.Command.Opening
import SqlSession.Proofs.Command.Plan
import SqlSession.Transaction.Basic

/-!
# Work that is made of queries

Whatever is done with an engine is made of a few requests.  A relation between the engine before some
work and the engine after it that holds of the requests for queries, and that goes on from one piece of
work to the next, holds of commands, of cursors and of the loading of types (`EngineRel.OfQueries`).
-/

namespace SqlSession

/-- The engine before, the error if the work fails, and the engine after. -/
abbrev EngineRel := Engine → Option Error → Engine → Prop

/-- The error tells of a failure of the engine. -/
def Error.IsDatabase : Error → Prop
  | .database _ => True
  | _ => False

theorem Error.OfCursor.not_isDatabase {err : Error} (h : err.OfCursor) : ¬ err.IsDatabase := by
  cases h <;> exact id

namespace Effect

variable {ε σ γ : Type} {α β : Type}

/-! ## Checks with known errors -/

/-- A check that fails with no other errors than these. -/
def FailsWith (errors : ε → Prop) (x : Except ε α) : Prop := ∀ err, x = .error err → errors err

variable {errors : ε → Prop}

theorem failsWith_ok (a : α) : FailsWith errors (.ok a : Except ε α) := fun _ h => nomatch h

theorem failsWith_error {err : ε} (h : errors err) : FailsWith errors (.error err : Except ε α) := by
  rintro _ ⟨⟩
  exact h

theorem FailsWith.bind {x : Except ε α} {f : α → Except ε β} (hx : FailsWith errors x)
    (hf : ∀ a, FailsWith errors (f a)) : FailsWith errors (x >>= f) := by
  intro err h
  obtain h | ⟨a, -, h⟩ := check_bind_eq_error.mp h
  · exact hx err h
  · exact hf a err h

theorem FailsWith.map {x : Except ε α} (hx : FailsWith errors x) (f : α → β) :
    FailsWith errors (f <$> x) := by
  cases x with
  | ok a => exact failsWith_ok _
  | error err => exact failsWith_error (hx err rfl)

theorem FailsWith.mapM {f : α → Except ε β} {as : List α} (hf : ∀ a, FailsWith errors (f a)) :
    FailsWith errors (as.mapM f) := by
  intro err h
  obtain ⟨a, -, ha⟩ := exists_of_check_mapM h
  exact hf a err ha

/-! ## Relations between states -/

def failure? : EStateM.Result ε σ α → Option ε
  | .ok _ _ => none
  | .error err _ => some err

def final : EStateM.Result ε σ α → σ
  | .ok _ s => s
  | .error _ s => s

/-- What a result says, without the state that it leaves. -/
def verdict : EStateM.Result ε σ α → Except ε α
  | .ok a _ => .ok a
  | .error err _ => .error err

theorem verdict_ofExcept (x : Except ε α) (s : σ) :
    verdict ((ofExcept x : EStateM ε σ α) s) = x := by
  cases x <;> rfl

theorem final_ofExcept (x : Except ε α) (s : σ) : final ((ofExcept x : EStateM ε σ α) s) = s := by
  cases x <;> rfl

/-- What `view` shows before and after the work is in this relation. -/
def Relates (R : γ → Option ε → γ → Prop) (view : σ → γ) (x : EStateM ε σ α) : Prop :=
  ∀ s, R (view s) (failure? (x s)) (view (final (x s)))

variable {R : γ → Option ε → γ → Prop} {view : σ → γ}

theorem Relates.of_ok {x : EStateM ε σ α} (h : Relates R view x) {a : α} {s t : σ}
    (hx : x s = .ok a t) : R (view s) none (view t) := by
  have hs := h s
  rw [hx] at hs
  exact hs

theorem Relates.of_error {x : EStateM ε σ α} (h : Relates R view x) {err : ε} {s t : σ}
    (hx : x s = .error err t) : R (view s) (some err) (view t) := by
  have hs := h s
  rw [hx] at hs
  exact hs

end Effect

open Effect

/-! ## Checks that have nothing to do with the engine -/

/-- The check fails with no error of the engine. -/
abbrev Effect.Own {α : Type} (x : Except Error α) : Prop := FailsWith (fun err => ¬ err.IsDatabase) x

namespace Catalog

theorem own_textIn (column : Nat) (v : Value) : Own (textIn column v) := by
  unfold textIn
  split
  · exact failsWith_ok _
  · exact failsWith_error id

theorem own_oidIn (column : Nat) (v : Value) : Own (oidIn column v) := by
  unfold oidIn
  dsimp only
  split
  · exact failsWith_ok _
  · split
    · exact failsWith_ok _
    · exact failsWith_error id
  · split
    · exact failsWith_ok _
    · exact failsWith_error id
  · exact failsWith_error id

theorem own_rowOfCells (schema oid name kind element : Value) :
    Own (rowOfCells schema oid name kind element) := by
  unfold rowOfCells
  refine (own_textIn 3 kind).bind fun kind => ?_
  cases kind.toList with
  | nil => exact failsWith_error id
  | cons c _ =>
    -- The identifier and the element stand behind the kind, whichever kind it is.
    refine (own_textIn 0 schema).bind fun schema => (own_oidIn 1 oid).bind fun oid => ?_
    cases oid with
    | none => exact failsWith_error id
    | some oid =>
      exact (own_textIn 2 name).bind fun name =>
        (own_oidIn 5 element).bind fun element => failsWith_ok _

theorem own_cell (e : Engine) (described : List Column) (b : RowBuffer) (i : Nat) :
    Own (cell e described b i) := by
  unfold cell
  split
  · exact fun _ h => (Cursor.decode_ofCursor h).not_isDatabase
  · exact failsWith_ok _

theorem own_readRows (e : Engine) (t : TableHandle) (count index : Nat) (b : RowBuffer) :
    Own (readRows e t count index b) := by
  induction count generalizing index b with
  | zero => exact failsWith_ok _
  | succ count ih =>
    have hcell : ∀ b i, Own (cell e (e.describedColumns t) b i) := own_cell e _
    refine FailsWith.bind (fun _ h => (Cursor.fetchRow_ofCursor h).not_isDatabase) fun b =>
      (hcell b 0).bind fun schema => (hcell b 1).bind fun oid => (hcell b 2).bind fun name =>
        (hcell b 3).bind fun kind => (hcell b 4).bind fun _ => (hcell b 5).bind fun element =>
          (own_rowOfCells schema oid name kind element).bind fun row =>
            (ih (index + 1) b).bind fun rest => failsWith_ok _

theorem own_readTable (e : Engine) (outcome : Outcome) : Own (readTable e outcome) := by
  unfold readTable
  cases outcome.table with
  | none => exact failsWith_error id
  | some t =>
    dsimp only
    split
    · exact failsWith_error id
    · exact own_readRows e t _ _ _

end Catalog

theorem TypeMap.own_addRow (m : TypeMap) (row : CatalogRow) : Own (m.addRow row) := by
  unfold addRow
  split
  case h_3 => split <;> exact failsWith_ok _
  case h_9 => exact failsWith_error id
  all_goals exact failsWith_ok _

theorem TypeMap.own_ofRows (rows : List CatalogRow) : Own (ofRows rows) := by
  unfold ofRows
  generalize ([] : TypeMap) = m
  induction rows generalizing m with
  | nil => exact failsWith_ok _
  | cons row rows ih => exact (own_addRow m row).bind ih

theorem Command.own_plan (numberNamed : Bool) (parts : List CommandPart) :
    Own (plan numberNamed parts) := by
  have hpart : ∀ numbered part, Own (planPart numbered part) := by
    intro numbered part err h
    obtain ⟨_, _, _, _, _, rfl⟩ := planPart_eq_error h
    exact id
  have hstyle : ∀ ps, Own (Parameter.commonStyle ps) := by
    intro ps err h
    rw [(Parameter.commonStyle_eq_error.mp h).2]
    exact id
  unfold plan
  split
  · exact failsWith_error id
  · exact (hstyle _).bind fun style => .bind (.mapM (hpart _)) fun planned => failsWith_ok _

theorem Savepoint.own_quote (name : String) : Own (quote name) := by
  unfold quote
  split
  · exact failsWith_error id
  · split <;> exact failsWith_ok _

theorem IsolationLevel.own_sql (level : IsolationLevel) : Own level.sql := by
  cases level
  case chaos => exact failsWith_error id
  all_goals exact failsWith_ok _

namespace Connection

variable {R : EngineRel}

theorem own_checkReady (c : Connection) : Own c.checkReady := by
  unfold checkReady
  split
  · exact failsWith_ok ()
  · exact failsWith_error id
  · exact failsWith_error id

variable {α : Type} {work : EngineM α} {c : Connection} {e : Engine}

theorem onEngine_of_ok {a : α} (h : work c.engine = .ok a e) :
    onEngine work c = .ok a { c with engine := e } := by
  unfold onEngine
  rw [h]

theorem onEngine_of_error {err : Error} (h : work c.engine = .error err e) :
    onEngine work c = .error err { c with engine := e } := by
  unfold onEngine
  rw [h]

theorem relates_onEngine (h : Relates R id work) : Relates R engine (onEngine work) := by
  intro c
  cases hwork : work c.engine with
  | ok a e =>
    rw [onEngine_of_ok hwork]
    exact h.of_ok hwork
  | error err e =>
    rw [onEngine_of_error hwork]
    exact h.of_error hwork

theorem relates_onRegistry {work : EStateM Error (Registry × Engine) α}
    (h : Relates R Prod.snd work) : Relates R engine (onRegistry work) := by
  intro c
  unfold onRegistry
  cases hwork : work (c.registry, c.engine) with
  | ok a s => exact h.of_ok hwork
  | error err s => exact h.of_error hwork

end Connection

/-- The relation holds of work that leaves the engine alone and does not fail for it, of queries, and
of what is made of these. -/
structure EngineRel.OfQueries (R : EngineRel) : Prop where
  refl : ∀ e, R e none e
  refused : ∀ e {err : Error}, ¬ err.IsDatabase → R e (some err) e
  trans : ∀ {e e' e'' : Engine} {failure : Option Error}, R e none e' → R e' failure e'' →
    R e failure e''
  stores : ∀ {e e' : Engine}, Engine.Stores e e' → R e none e'
  prepare : ∀ query types, Relates R id (Request.prepare query types)
  executePlan : ∀ plan arguments markers, Relates R id (Request.executePlan plan arguments markers)
  execute : ∀ query readOnly, Relates R id (Request.execute query readOnly)

/-- The relation also holds if the settings of the engine are changed. -/
structure EngineRel.Closed (R : EngineRel) : Prop extends EngineRel.OfQueries R where
  configure : ∀ (e : Engine) (setting : Setting), R e none (e.configure setting)

namespace EngineRel.OfQueries

variable {R : EngineRel} (hR : EngineRel.OfQueries R)
include hR

section

variable {σ α β : Type} {view : σ → Engine}

theorem pure (a : α) : Relates R view (Pure.pure a : EStateM Error σ α) := fun s => hR.refl (view s)

theorem get : Relates R view (MonadState.get : EStateM Error σ σ) := fun s => hR.refl (view s)

theorem ofExcept {x : Except Error α} (h : FailsWith (fun err => ¬ err.IsDatabase) x) :
    Relates R view (MonadExcept.ofExcept x : EStateM Error σ α) := by
  intro s
  cases x with
  | ok a => exact hR.refl (view s)
  | error err => exact hR.refused (view s) (h err rfl)

theorem bind {x : EStateM Error σ α} {f : α → EStateM Error σ β} (hx : Relates R view x)
    (hf : ∀ a, Relates R view (f a)) : Relates R view (x >>= f) := by
  intro s
  rw [bind_apply]
  cases hresult : x s with
  | ok a t => exact hR.trans (hx.of_ok hresult) (hf a t)
  | error err t => exact hx.of_error hresult

theorem mapM {f : α → EStateM Error σ β} (hf : ∀ a, Relates R view (f a)) (as : List α) :
    Relates R view (as.mapM f) := by
  induction as with
  | nil => exact hR.pure []
  | cons a as ih =>
    rw [List.mapM_cons]
    exact hR.bind (hf a) fun b => hR.bind ih fun bs => hR.pure (b :: bs)

end

/-! ## Statements -/

theorem ofParameter (p : Parameter) : Relates R id (Argument.ofParameter p) := by
  intro e
  cases h : Argument.ofParameter p e with
  | ok a e' => exact hR.stores (Argument.ofParameter_stores h).1
  | error err e' =>
    obtain ⟨rfl, -, rfl⟩ := Argument.ofParameter_eq_error h
    exact hR.refused _ id

theorem send (s : PlannedStatement) : Relates R id s.send := by
  unfold PlannedStatement.send
  split
  · exact hR.execute s.sql false
  · exact hR.bind (hR.mapM hR.ofParameter _) fun arguments =>
      hR.bind (hR.prepare s.sql _) fun plan => hR.executePlan plan _ _

theorem sendAll (statements : List PlannedStatement) :
    Relates R id (PlannedStatement.sendAll statements) :=
  hR.mapM hR.send statements

/-! ## Types -/

theorem load : Relates R id Catalog.load := by
  exact hR.bind (hR.execute _ true) fun outcome => hR.bind hR.get fun e =>
    hR.bind (hR.ofExcept (Catalog.own_readTable e outcome)) fun rows =>
      hR.ofExcept (TypeMap.own_ofRows rows)

theorem ensureLoaded : Relates R Prod.snd Registry.ensureLoaded := by
  rintro ⟨r, e⟩
  have hloaded : Relates R id r.loaded := by
    unfold Registry.loaded
    split
    · exact hR.pure r
    · exact hR.bind hR.load fun types => hR.pure _
  unfold Registry.ensureLoaded
  dsimp only
  cases h : r.loaded e with
  | ok r' e' => exact hloaded.of_ok h
  | error err e' => exact hloaded.of_error h

theorem resolve (oid : Oid) : Relates R Prod.snd (Registry.resolve oid) := by
  unfold Registry.resolve
  refine hR.bind hR.get fun s => ?_
  split
  · exact hR.pure _
  · refine hR.bind hR.ensureLoaded fun _ => hR.bind hR.get fun s' => ?_
    split
    · exact hR.pure _
    · exact fun s'' => hR.refused _ id

/-! ## Connections -/

theorem openUp : Relates R Connection.engine Connection.openUp := by
  intro c
  unfold Connection.openUp
  split
  · exact hR.refl c.engine
  · exact hR.refused c.engine id

theorem typeName (cursor : Cursor) (i : Nat) :
    Relates R Connection.engine (cursor.typeName i) :=
  hR.bind (hR.ofExcept fun _ h => (Cursor.field_ofCursor h).not_isDatabase) fun _ =>
    hR.bind (Connection.relates_onRegistry (hR.resolve _)) fun _ => hR.pure _

theorem openCursor (command : Command) : Relates R Connection.engine command.openCursor := by
  intro c
  cases h : command.openCursor c with
  | ok cursor c' =>
    obtain ⟨-, statements, outcomes, e, -, hsend, -, rfl⟩ := Command.openCursor_eq_ok h
    exact (hR.sendAll statements).of_ok hsend
  | error err c' =>
    obtain ⟨rfl, hrefused⟩ | ⟨statements, e, -, hsend, rfl⟩ := Command.openCursor_eq_error h
    · refine hR.refused _ ?_
      obtain hbusy | hunplanned := hrefused
      · exact c'.own_checkReady err hbusy
      · exact Command.own_plan _ _ err hunplanned
    · exact (hR.sendAll statements).of_error hsend

theorem withCursor {α : Type} (command : Command) {walk : Engine → CursorM α}
    (hwalk : ∀ e, Cursor.Keeps (walk e)) :
    Relates R Connection.engine (command.withCursor walk) := by
  intro c
  cases hopen : command.openCursor c with
  | error err c' =>
    rw [Command.withCursor_of_error hopen]
    exact (hR.openCursor command).of_error hopen
  | ok cursor c' =>
    obtain ⟨-, hends⟩ := Command.withCursor_ends hwalk hopen
    have hopened : R c.engine none c'.engine := (hR.openCursor command).of_ok hopen
    cases hresult : command.withCursor walk c with
    | ok a c'' =>
      rw [hends.of_ok hresult]
      exact hopened
    | error err c'' =>
      obtain ⟨rfl, herr⟩ := hends.of_error hresult
      exact hR.trans hopened (hR.refused _ herr.not_isDatabase)

theorem onSavepoint (words name : String) :
    Relates R Connection.engine (Transaction.onSavepoint words name) := by
  exact hR.bind (hR.ofExcept (Savepoint.own_quote name)) fun quoted =>
    hR.bind (Connection.relates_onEngine (hR.execute _ false)) fun _ => hR.pure ()

end EngineRel.OfQueries

/-! ## Queries only add to an engine -/

namespace Engine

theorem raise_continues {α : Type} (r : ErrorRecord) (e : Engine) :
    Continues e (final ((raise r : Native α) e)) :=
  ⟨⟨.refl _, .refl _, .refl _⟩, ⟨rfl, rfl⟩⟩

theorem run_continues (query : String) (e : Engine) : Continues e (final (run query e)) := by
  cases hrun : run query e with
  | ok t e' => exact (run_eq_ok hrun).1
  | error h e' =>
    unfold run at hrun
    split at hrun
    case h_3 r _ =>
      rw [← hrun]
      exact raise_continues r e
    all_goals cases hrun

theorem prepare_continues (query : String) (types : List Oid) (e : Engine) :
    Continues e (final (prepare query types e)) := by
  cases hprepare : prepare query types e with
  | ok p e' => exact (prepare_eq_ok hprepare).1
  | error h e' =>
    unfold prepare at hprepare
    dsimp only at hprepare
    split at hprepare
    · split at hprepare
      · rw [← hprepare]
        exact (continues_log e _).trans (raise_continues _ _)
      · cases hprepare
    · cases hprepare

end Engine

namespace Request

open Engine

theorem guarded_continues {α : Type} {call : Native α} (h : ∀ e, Continues e (final (call e)))
    (e : Engine) : Continues e (final (guarded call e)) := by
  have he := h e
  unfold guarded
  cases hcall : call e with
  | ok a e' =>
    rw [hcall] at he
    exact he
  | error handle e' =>
    rw [hcall] at he
    exact he.trans ⟨⟨.refl _, .refl _, .refl _⟩, ⟨rfl, rfl⟩⟩

theorem outcome_continues {call : Native (Option TableHandle)}
    (h : ∀ e, Continues e (final (call e))) (e : Engine) :
    Continues e (final (outcome call e)) := by
  have he := guarded_continues h e
  unfold outcome
  rw [bind_apply]
  cases hcall : guarded call e with
  | ok t e' =>
    rw [hcall] at he
    exact he
  | error err e' =>
    rw [hcall] at he
    exact he

end Request

/-- Work that is made of queries keeps what the engine has handed out, and does not change how it
answers. -/
theorem Engine.ofQueries_continues : EngineRel.OfQueries fun e _ e' => Continues e e' where
  refl := .refl
  refused e _ _ := .refl e
  trans h h' := h.trans h'
  stores h := h.continues
  prepare query types := Request.guarded_continues (prepare_continues query types)
  executePlan _ _ _ :=
    Request.outcome_continues fun e => (continues_log e _).trans (run_continues _ _)
  execute _ _ := Request.outcome_continues fun e => (continues_log e _).trans (run_continues _ _)

end SqlSession
