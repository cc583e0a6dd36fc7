import SqlSession.Proofs.Catalog.Agreement
import SqlSession.Proofs.Connection.Standing

/-!
# Connections that look up types

To look up the name of a type turns to the registry and to the engine of a connection, and to nothing
else of it (`Connection.Resolves`).  The types that the registry shows stay the same, also when they
could not be loaded: the next load goes as this one went.
-/

namespace SqlSession

open Effect Engine

namespace Connection

variable {α β : Type} {c c' c'' : Connection}

/-- The same connection with other types and another engine. -/
def holding (c : Connection) (r : Registry) (e : Engine) : Connection :=
  { c with registry := r, engine := e }

theorem onRegistry_eq (work : EStateM Error (Registry × Engine) α) (c : Connection) :
    verdict (onRegistry work c) = verdict (work (c.registry, c.engine)) ∧
      final (onRegistry work c) =
        c.holding (final (work (c.registry, c.engine))).1 (final (work (c.registry, c.engine))).2 := by
  unfold onRegistry
  cases work (c.registry, c.engine) <;> exact ⟨rfl, rfl⟩

theorem onRegistry_map (work : EStateM Error (Registry × Engine) α) (f : α → β) :
    (onRegistry work >>= fun a => pure (f a)) = onRegistry (work >>= fun a => pure (f a)) := by
  funext c
  rw [bind_apply]
  unfold onRegistry
  rw [bind_apply]
  cases work (c.registry, c.engine) <;> rfl

/-- Nothing has happened to the connection but that types have been looked up. -/
structure Resolves (c c' : Connection) : Prop where
  same : c' = c.holding c'.registry c'.engine
  continues : Continues c.engine c'.engine
  view : c.engine.faults.rowCount = none →
    c'.registry.view c'.engine = c.registry.view c.engine

theorem Resolves.refl (c : Connection) : Resolves c c := ⟨rfl, .refl _, fun _ => rfl⟩

theorem Resolves.trans (h : Resolves c c') (h' : Resolves c' c'') : Resolves c c'' where
  same := by
    rw [h'.same, h.same]
    rfl
  continues := h.continues.trans h'.continues
  view hcount := by
    have hcount' : c'.engine.faults.rowCount = none := by rw [h.continues.alike.faults, hcount]
    rw [h'.view hcount', h.view hcount]

/-- A change that is not about the engine and the types can be made before or after. -/
theorem Resolves.map {f : Connection → Connection}
    (hf : ∀ c r e, f (c.holding r e) = (f c).holding r e)
    (h : Resolves c c') : Resolves (f c) (f c') := by
  have hregistry : ∀ c, (f c).registry = c.registry := by
    intro c
    have hsame := congrArg registry (hf c c.registry c.engine)
    exact hsame
  have hengine : ∀ c, (f c).engine = c.engine := by
    intro c
    have hsame := congrArg engine (hf c c.registry c.engine)
    exact hsame
  refine ⟨?_, ?_, ?_⟩
  · rw [hregistry c', hengine c', ← hf, ← h.same]
  · rw [hengine, hengine]
    exact h.continues
  · rw [hengine, hengine, hregistry, hregistry]
    exact h.view

end Connection

namespace Cursor

open Connection

variable {cursor : Cursor} {c c' : Connection}

/-- The name of a type is made of what is known of it and of the facets of its column. -/
theorem typeName_eq {i : Nat} {f : Field} (h : cursor.field i = .ok f) :
    cursor.typeName i =
      onRegistry (Registry.withTypes fun m => (·.displayWith f.modifier) <$> m.entry f.type) := by
  rw [← Registry.withTypes_map, ← Registry.resolve_eq, ← onRegistry_map]
  unfold typeName
  rw [h]
  rfl

theorem typeName_resolves (cursor : Cursor) (i : Nat) (c : Connection) :
    Resolves c (final (cursor.typeName i c)) := by
  have hcontinues := ofQueries_continues.typeName cursor i c
  cases hfield : cursor.field i with
  | error err =>
    rw [typeName_of_error hfield]
    exact .refl c
  | ok f =>
    rw [typeName_eq hfield] at hcontinues ⊢
    obtain ⟨-, hfinal⟩ := onRegistry_eq
      (Registry.withTypes fun m => (·.displayWith f.modifier) <$> m.entry f.type) c
    refine ⟨?_, hcontinues, fun hcount => ?_⟩
    · rw [hfinal]
      rfl
    · rw [hfinal]
      exact Registry.view_withTypes c.registry hcount

/-- An engine that reports its own row counts gives the same name again. -/
theorem verdict_typeName_of_resolves (h : Resolves c c') (hcount : c.engine.faults.rowCount = none)
    (i : Nat) : verdict (cursor.typeName i c') = verdict (cursor.typeName i c) := by
  cases hfield : cursor.field i with
  | error err =>
    rw [typeName_of_error hfield, typeName_of_error hfield]
    rfl
  | ok f =>
    rw [typeName_eq hfield, (onRegistry_eq _ c').1, (onRegistry_eq _ c).1,
      Registry.verdict_withTypes, Registry.verdict_withTypes, h.view hcount]

/-- The end of a cursor has nothing to do with the engine and the types. -/
theorem finish_holding (cursor : Cursor) (disposing : Bool) (c : Connection) (r : Registry)
    (e : Engine) :
    (cursor.finish disposing (c.holding r e)).2 = (cursor.finish disposing c).2.holding r e := by
  have hclose : ∀ c : Connection, (c.holding r e).close = c.close.holding r e := by
    intro c
    unfold Connection.close
    split <;> split <;> first | rfl | contradiction
  unfold finish Connection.endCursor
  split
  · rfl
  · split
    · exact congrArg (fun c : Connection => { c with cursorEnded := true }) (hclose (c.endExecution _))
    · rfl

theorem finish_fst (cursor : Cursor) (disposing : Bool) (c c' : Connection) :
    (cursor.finish disposing c').1 = (cursor.finish disposing c).1 := by
  unfold finish
  split <;> rfl

end Cursor

end SqlSession
