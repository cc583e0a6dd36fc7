import Mathlib.Data.List.Perm.Basic
import SqlSession.Parameter.Basic
import SqlSession.Proofs.Effect

/-!
# Arguments by name and by position

Parameters share a style unless some have names and some have none, in whatever order they stand
(`commonStyle_eq_error`, `mixed_perm`).  A name is supplied by the first parameter that has it
exactly, and only without one by the first that has it up to ASCII case (`find_eq_ok`).
-/

namespace SqlSession

/-- The first element of a list with a property. -/
def FirstOf {α : Type} (P : α → Prop) (xs : List α) (x : α) : Prop :=
  ∃ before after, xs = before ++ x :: after ∧ P x ∧ ∀ y ∈ before, ¬ P y

theorem find?_eq_some_firstOf {α : Type} {p : α → Bool} {P : α → Prop}
    (hp : ∀ x, p x = true ↔ P x) {xs : List α} {x : α} :
    xs.find? p = some x ↔ FirstOf P xs x := by
  have hnot : ∀ y, (!p y) = true ↔ ¬ P y := by
    intro y
    rw [Bool.not_eq_true', ← hp, Bool.not_eq_true]
  simp only [List.find?_eq_some_iff_append, FirstOf, hp, hnot]
  constructor
  · rintro ⟨hx, before, after, hxs, hbefore⟩
    exact ⟨before, after, hxs, hx, hbefore⟩
  · rintro ⟨before, after, hxs, hx, hbefore⟩
    exact ⟨hx, before, after, hxs, hbefore⟩

namespace Parameter

/-! ## Styles -/

/-- Some parameters have names and some have none. -/
def Mixed (ps : List Parameter) : Prop :=
  (∃ p ∈ ps, p.style = .positional) ∧ ∃ p ∈ ps, p.style = .named

/-- There are parameters, and all of them have names. -/
def AllNamed (ps : List Parameter) : Prop :=
  (∃ p ∈ ps, p.style = .named) ∧ ∀ p ∈ ps, p.style = .named

theorem mixed_iff {p : Parameter} {ps : List Parameter} :
    Mixed (p :: ps) ↔ ∃ q ∈ ps, q.style ≠ p.style := by
  have hother : ∀ q : Parameter, q.style ≠ p.style ↔
      p.style = .positional ∧ q.style = .named ∨ p.style = .named ∧ q.style = .positional := by
    intro q
    cases p.style <;> cases q.style <;> simp
  simp only [Mixed, List.exists_mem_cons_iff, hother]
  cases hp : p.style with
  | positional => simp
  | named => simp

theorem commonStyle_eq_error {ps : List Parameter} {err : Error} :
    commonStyle ps = .error err ↔ Mixed ps ∧ err = .binding .mixedStyles := by
  cases ps with
  | nil => simp [commonStyle, Mixed]
  | cons p ps =>
    rw [mixed_iff]
    simp only [commonStyle, List.all_eq_true, beq_iff_eq]
    split
    · next h =>
      constructor
      · intro h
        cases h
      · rintro ⟨⟨q, hq, hne⟩, -⟩
        exact absurd (h q hq) hne
    · next h =>
      obtain ⟨q, hq, hne⟩ : ∃ q ∈ ps, q.style ≠ p.style := by simpa using h
      constructor
      · intro h
        exact ⟨⟨q, hq, hne⟩, (Except.error.inj h).symm⟩
      · rintro ⟨-, rfl⟩
        rfl

theorem commonStyle_eq_named {ps : List Parameter} {style : Option BindingStyle}
    (h : commonStyle ps = .ok style) : style = some .named ↔ AllNamed ps := by
  cases ps with
  | nil =>
    cases h
    simp [AllNamed]
  | cons p ps =>
    simp only [commonStyle, List.all_eq_true, beq_iff_eq] at h
    split at h
    · next hall =>
      cases h
      rw [Option.some.injEq]
      constructor
      · intro hp
        refine ⟨⟨p, List.mem_cons_self, hp⟩, ?_⟩
        intro q hq
        obtain rfl | hq := List.mem_cons.mp hq
        · exact hp
        · exact (hall q hq).trans hp
      · intro hnamed
        exact hnamed.2 p List.mem_cons_self
    · cases h

theorem mixed_perm {ps qs : List Parameter} (h : ps.Perm qs) : Mixed ps ↔ Mixed qs := by
  simp only [Mixed, h.mem_iff]

/-! ## Names -/

/-- The parameter has a name that is equal to this one up to ASCII case. -/
def HasName (name : String) (p : Parameter) : Prop :=
  ∃ own, p.name = some own ∧ Text.sameFolded own name = true

theorem hasName_of_eq {p : Parameter} {name : String} (h : p.name = some name) : p.HasName name :=
  ⟨name, h, Text.sameFolded_refl name⟩

/-- The parameter that a placeholder of this name stands for. -/
def Supplies (ps : List Parameter) (name : String) (p : Parameter) : Prop :=
  FirstOf (fun q => q.name = some name) ps p ∨
    (∀ q ∈ ps, q.name ≠ some name) ∧ FirstOf (HasName name) ps p

theorem findNamed?_eq_some {ps : List Parameter} {name : String} {p : Parameter} :
    Text.findNamed? Parameter.name name ps = some p ↔ Supplies ps name p := by
  have hor : Text.findNamed? Parameter.name name ps =
      (ps.find? fun q => q.name == some name).or
        (ps.find? fun q => q.name.any (Text.sameFolded · name)) := by
    unfold Text.findNamed?
    cases ps.find? fun q => q.name == some name <;> rfl
  have hexact : ps.find? (fun q => q.name == some name) = some p ↔
      FirstOf (fun q => q.name = some name) ps p :=
    find?_eq_some_firstOf fun _ => beq_iff_eq
  have hfolded : ps.find? (fun q => q.name.any (Text.sameFolded · name)) = some p ↔
      FirstOf (HasName name) ps p :=
    find?_eq_some_firstOf fun _ => Option.any_eq_true _ _
  rw [hor, Option.or_eq_some_iff, hexact, hfolded, List.find?_eq_none]
  simp only [Supplies, beq_iff_eq, ne_eq]

theorem findNamed?_eq_none {ps : List Parameter} {name : String} :
    Text.findNamed? Parameter.name name ps = none ↔ ∀ p ∈ ps, ¬ p.HasName name := by
  constructor
  · intro h p hp hname
    unfold Text.findNamed? at h
    split at h
    · cases h
    · exact List.find?_eq_none.mp h p hp ((Option.any_eq_true _ _).mpr hname)
  · intro h
    cases hfind : Text.findNamed? Parameter.name name ps with
    | none => rfl
    | some p =>
      obtain ⟨before, after, rfl, hp, -⟩ | ⟨-, before, after, rfl, hp, -⟩ :=
        findNamed?_eq_some.mp hfind
      · exact absurd (hasName_of_eq hp) (h p (by simp))
      · exact absurd hp (h p (by simp))

theorem find_eq_ok {ps : List Parameter} {name : String} {p : Parameter} :
    find ps name = .ok p ↔ Supplies ps name p := by
  rw [← findNamed?_eq_some]
  unfold find
  cases Text.findNamed? Parameter.name name ps <;> simp

theorem find_eq_error {ps : List Parameter} {name : String} {err : Error} :
    find ps name = .error err ↔
      (∀ p ∈ ps, ¬ p.HasName name) ∧ err = .binding (.missing name) := by
  rw [← findNamed?_eq_none]
  unfold find
  cases Text.findNamed? Parameter.name name ps <;> simp [eq_comm]

theorem arrange_eq_ok {names : List String} {ps qs : List Parameter} :
    arrange names ps = .ok qs ↔ List.Forall₂ (Supplies ps) names qs := by
  simp only [arrange, Effect.check_mapM_eq_ok, find_eq_ok]

end Parameter
end SqlSession
