import Mathlib.Data.List.Forall2
import Mathlib.Data.List.Induction

/-!
# Work that has succeeded

Everything that touches an engine or a connection is work with a state that can fail.  The lemmas
here run a piece of such work, or take one that has succeeded apart, so that no proof has to unfold
the monad.
-/

namespace SqlSession
namespace Effect

variable {ε σ : Type} {α β : Type}

theorem bind_apply (x : EStateM ε σ α) (f : α → EStateM ε σ β) (s : σ) :
    (x >>= f) s = match x s with
      | .ok a t => f a t
      | .error err t => .error err t := rfl

theorem pure_apply (a : α) (s : σ) : (pure a : EStateM ε σ α) s = .ok a s := rfl

theorem get_apply (s : σ) : (get : EStateM ε σ σ) s = .ok s s := rfl

theorem set_apply (s t : σ) : (set t : EStateM ε σ PUnit) s = .ok ⟨⟩ t := rfl

theorem modify_apply (f : σ → σ) (s : σ) : (modify f : EStateM ε σ PUnit) s = .ok ⟨⟩ (f s) := rfl

theorem bind_eq_ok {x : EStateM ε σ α} {f : α → EStateM ε σ β} {s s' : σ} {b : β} :
    (x >>= f) s = .ok b s' ↔ ∃ a t, x s = .ok a t ∧ f a t = .ok b s' := by
  rw [bind_apply]
  cases h : x s with
  | ok a t => simp
  | error e t => simp

theorem pure_eq_ok {a b : α} {s s' : σ} :
    (pure a : EStateM ε σ α) s = .ok b s' ↔ a = b ∧ s = s' := by
  rw [pure_apply]
  simp

theorem bind_eq_error {x : EStateM ε σ α} {f : α → EStateM ε σ β} {s s' : σ} {err : ε} :
    (x >>= f) s = .error err s' ↔
      x s = .error err s' ∨ ∃ a t, x s = .ok a t ∧ f a t = .error err s' := by
  rw [bind_apply]
  cases h : x s with
  | ok a t => simp
  | error e t => simp

theorem mapM_cons_eq_ok {f : α → EStateM ε σ β} {a : α} {as : List α} {s s' : σ} {bs : List β} :
    (a :: as).mapM f s = .ok bs s' ↔
      ∃ b t rest, f a s = .ok b t ∧ as.mapM f t = .ok rest s' ∧ bs = b :: rest := by
  rw [List.mapM_cons, bind_eq_ok]
  constructor
  · intro hgiven
    obtain ⟨b, t, hb, h⟩ := hgiven
    obtain ⟨rest, t', hrest, h⟩ := bind_eq_ok.mp h
    obtain ⟨rfl, rfl⟩ := pure_eq_ok.mp h
    exact ⟨b, t, rest, hb, hrest, rfl⟩
  · intro hgiven
    obtain ⟨b, t, rest, hb, hrest, rfl⟩ := hgiven
    exact ⟨b, t, hb, bind_eq_ok.mpr ⟨rest, s', hrest, rfl⟩⟩

theorem mapM_nil_eq_ok {f : α → EStateM ε σ β} {s s' : σ} {bs : List β} :
    ([] : List α).mapM f s = .ok bs s' ↔ bs = [] ∧ s = s' := by
  rw [List.mapM_nil, pure_eq_ok]
  exact and_congr_left fun _ => eq_comm

/-- Work on a list that fails has succeeded up to the element that it fails on, and has not come to
the elements behind. -/
theorem mapM_eq_error {f : α → EStateM ε σ β} {as : List α} {s s' : σ} {err : ε}
    (h : as.mapM f s = .error err s') :
    ∃ before a after bs t, as = before ++ a :: after ∧ before.mapM f s = .ok bs t ∧
      f a t = .error err s' := by
  induction as generalizing s with
  | nil => cases h
  | cons a as ih =>
    rw [List.mapM_cons, bind_eq_error] at h
    obtain hfirst | ⟨b, t, hb, h⟩ := h
    · exact ⟨[], a, as, [], s, rfl, rfl, hfirst⟩
    · obtain hrest | ⟨bs, t', -, h⟩ := bind_eq_error.mp h
      · obtain ⟨before, x, after, cs, u, rfl, hbefore, hx⟩ := ih hrest
        exact ⟨a :: before, x, after, b :: cs, u, rfl,
          mapM_cons_eq_ok.mpr ⟨b, t, cs, hb, hbefore, rfl⟩, hx⟩
      · cases h

/-- What every piece of work on an element does, and what no later one can spoil, holds of all
results together.  `P` is what the work needs, and `R` is how the states follow each other. -/
theorem mapM_forall₂ {f : α → EStateM ε σ β} {P : σ → Prop} {R : σ → σ → Prop}
    {Q : σ → α → β → Prop} (hrefl : ∀ s, R s s) (htrans : ∀ {s t u}, R s t → R t u → R s u)
    (hkeep : ∀ {s t}, R s t → P s → P t) (hmono : ∀ {s t a b}, R s t → Q s a b → Q t a b)
    (hstep : ∀ {s t a b}, P s → f a s = .ok b t → R s t ∧ Q t a b)
    {as : List α} {bs : List β} {s s' : σ} (hs : P s) (h : as.mapM f s = .ok bs s') :
    R s s' ∧ List.Forall₂ (Q s') as bs := by
  induction as generalizing s bs with
  | nil =>
    obtain ⟨rfl, rfl⟩ := mapM_nil_eq_ok.mp h
    exact ⟨hrefl s, .nil⟩
  | cons a as ih =>
    obtain ⟨b, t, rest, hb, hrest, rfl⟩ := mapM_cons_eq_ok.mp h
    obtain ⟨hst, hq⟩ := hstep hs hb
    obtain ⟨hts, hqs⟩ := ih (hkeep hst hs) hrest
    exact ⟨htrans hst hts, .cons (hmono hts hq) hqs⟩

/-- Work on all positions of a list that finds what stands there gives the list. -/
theorem mapM_range_eq_ok {f : Nat → Except ε α} {as : List α}
    (h : ∀ i a, as[i]? = some a → f i = .ok a) : (List.range as.length).mapM f = .ok as := by
  induction as using List.reverseRecOn with
  | nil => rfl
  | append_singleton as a ih =>
    have hlast : f as.length = .ok a := h _ a (by simp)
    have hinit : (List.range as.length).mapM f = .ok as := by
      refine ih fun i b hb => h i b ?_
      rw [List.getElem?_append_left (List.getElem?_eq_some_iff.mp hb).1]
      exact hb
    rw [List.length_append, List.length_singleton, List.range_succ, List.mapM_append, hinit]
    simp only [List.mapM_cons, hlast]
    rfl

/-! ## How work ends -/

/-- Work ends in such a state, whether it has succeeded or failed, and a failure is such an error. -/
def Ends (after : σ → Prop) (errors : ε → Prop) : EStateM.Result ε σ α → Prop
  | .ok _ s => after s
  | .error err s => after s ∧ errors err

section Ends

variable {after after' : σ → Prop} {errors errors' : ε → Prop} {r : EStateM.Result ε σ α}

theorem Ends.of_ok {a : α} {s : σ} (h : Ends after errors r) (hr : r = .ok a s) : after s := by
  rw [hr] at h
  exact h

theorem Ends.of_error {err : ε} {s : σ} (h : Ends after errors r) (hr : r = .error err s) :
    after s ∧ errors err := by
  rw [hr] at h
  exact h

theorem Ends.bind {x : EStateM ε σ α} {f : α → EStateM ε σ β} {s : σ}
    (hx : Ends after errors (x s)) (hf : ∀ a t, after t → Ends after errors (f a t)) :
    Ends after errors ((x >>= f) s) := by
  rw [bind_apply]
  cases h : x s with
  | ok a t => exact hf a t (hx.of_ok h)
  | error err t => exact hx.of_error h

theorem Ends.imp (h : Ends after errors r) (hafter : ∀ s, after s → after' s)
    (herrors : ∀ err, errors err → errors' err) : Ends after' errors' r := by
  cases r with
  | ok a s => exact hafter s h
  | error err s => exact ⟨hafter s h.1, herrors err h.2⟩

end Ends

/-- Work that keeps what `view` shows of the state, and fails with no other errors than these. -/
def Keeps {γ : Type} (view : σ → γ) (errors : ε → Prop) (x : EStateM ε σ α) : Prop :=
  ∀ s, Ends (fun t => view t = view s) errors (x s)

section Keeps

variable {γ : Type} {view : σ → γ} {errors : ε → Prop}

theorem Keeps.bind {x : EStateM ε σ α} {f : α → EStateM ε σ β} (hx : Keeps view errors x)
    (hf : ∀ a, Keeps view errors (f a)) : Keeps view errors (x >>= f) := by
  intro s
  refine (hx s).bind fun a t ht => ?_
  rw [← ht]
  exact hf a t

theorem keeps_pure (a : α) : Keeps view errors (pure a : EStateM ε σ α) := fun _ => rfl

theorem keeps_ofExcept {x : Except ε α} (h : ∀ err, x = .error err → errors err) :
    Keeps view errors (ofExcept x : EStateM ε σ α) := by
  intro s
  cases x with
  | ok a => exact rfl
  | error err => exact ⟨rfl, h err rfl⟩

end Keeps

/-! ## Changes that work does not see -/

/-- The same end in another state. -/
def onState (g : σ → σ) : EStateM.Result ε σ α → EStateM.Result ε σ α
  | .ok a s => .ok a (g s)
  | .error err s => .error err (g s)

/-- Work that goes the same after a change as before it, and leaves the change as it is. -/
def Unaware (g : σ → σ) (x : EStateM ε σ α) : Prop := ∀ s, x (g s) = onState g (x s)

section Unaware

variable {g : σ → σ}

theorem unaware_pure (a : α) : Unaware g (pure a : EStateM ε σ α) := fun _ => rfl

theorem Unaware.bind {x : EStateM ε σ α} {f : α → EStateM ε σ β} (hx : Unaware g x)
    (hf : ∀ a, Unaware g (f a)) : Unaware g (x >>= f) := by
  intro s
  rw [bind_apply, bind_apply, hx s]
  cases x s with
  | ok a t => exact hf a t
  | error err t => rfl

theorem Unaware.mapM {f : α → EStateM ε σ β} (hf : ∀ a, Unaware g (f a)) (as : List α) :
    Unaware g (as.mapM f) := by
  induction as with
  | nil => exact unaware_pure []
  | cons a as ih =>
    rw [List.mapM_cons]
    exact (hf a).bind fun b => ih.bind fun bs => unaware_pure (b :: bs)

end Unaware

/-! ## Checks

A check is work without a state. -/

theorem check_bind_eq_ok {x : Except ε α} {f : α → Except ε β} {b : β} :
    (x >>= f) = .ok b ↔ ∃ a, x = .ok a ∧ f a = .ok b := by
  cases x with
  | ok a => simp [bind, Except.bind]
  | error err => simp [bind, Except.bind]

theorem check_bind_eq_error {x : Except ε α} {f : α → Except ε β} {err : ε} :
    (x >>= f) = .error err ↔ x = .error err ∨ ∃ a, x = .ok a ∧ f a = .error err := by
  cases x with
  | ok a => simp [bind, Except.bind]
  | error err => simp [bind, Except.bind]

/-- What every element keeps is kept by all of them together. -/
theorem check_foldlM_keeps {f : β → α → Except ε β} {P : β → Prop}
    (hkeep : ∀ {a b b'}, P b → f b a = .ok b' → P b') {as : List α} {b b' : β} (hb : P b)
    (h : as.foldlM f b = .ok b') : P b' := by
  induction as generalizing b with
  | nil =>
    cases h
    exact hb
  | cons a as ih =>
    rw [List.foldlM_cons] at h
    obtain ⟨b₁, hfirst, hrest⟩ := check_bind_eq_ok.mp h
    exact ih (hkeep hb hfirst) hrest

/-- A list passes if all its elements do. -/
theorem check_mapM_eq_ok {f : α → Except ε β} {as : List α} {bs : List β} :
    as.mapM f = .ok bs ↔ List.Forall₂ (fun a b => f a = .ok b) as bs := by
  induction as generalizing bs with
  | nil =>
    rw [List.mapM_nil, List.forall₂_nil_left_iff]
    exact ⟨fun h => (Except.ok.inj h).symm, fun h => congrArg Except.ok h.symm⟩
  | cons a as ih =>
    simp only [List.mapM_cons, check_bind_eq_ok, ih, List.forall₂_cons_left_iff]
    constructor
    · rintro ⟨b, hb, rest, hrest, h⟩
      exact ⟨b, rest, hb, hrest, (Except.ok.inj h).symm⟩
    · rintro ⟨b, rest, hb, hrest, rfl⟩
      exact ⟨b, hb, rest, hrest, rfl⟩

/-- A list fails with the error of one of its elements. -/
theorem exists_of_check_mapM {f : α → Except ε β} {as : List α} {err : ε}
    (h : as.mapM f = .error err) : ∃ a ∈ as, f a = .error err := by
  induction as with
  | nil => cases h
  | cons a as ih =>
    rw [List.mapM_cons, check_bind_eq_error] at h
    obtain hfirst | ⟨b, -, h⟩ := h
    · exact ⟨a, List.mem_cons_self, hfirst⟩
    · obtain hrest | ⟨bs, -, h⟩ := check_bind_eq_error.mp h
      · obtain ⟨x, hx, hfails⟩ := ih hrest
        exact ⟨x, List.mem_cons_of_mem a hx, hfails⟩
      · cases h

theorem getElem?_of_forall₂ {R : α → β → Prop} {as : List α} {bs : List β}
    (h : List.Forall₂ R as bs) {i : Nat} {a : α} (ha : as[i]? = some a) :
    ∃ b, bs[i]? = some b ∧ R a b := by
  obtain ⟨hi, rfl⟩ := List.getElem?_eq_some_iff.mp ha
  have hi' : i < bs.length := h.length_eq ▸ hi
  exact ⟨bs[i], List.getElem?_eq_getElem hi', h.get hi hi'⟩

/-- A list with an element that fails does not pass. -/
theorem check_mapM_fails {f : α → Except ε β} {as : List α} {a : α} {err : ε} (ha : a ∈ as)
    (h : f a = .error err) : ∃ other, as.mapM f = .error other := by
  cases hall : as.mapM f with
  | error other => exact ⟨other, rfl⟩
  | ok bs =>
    obtain ⟨i, hi⟩ := List.mem_iff_getElem?.mp ha
    obtain ⟨b, -, hb⟩ := getElem?_of_forall₂ (check_mapM_eq_ok.mp hall) hi
    rw [h] at hb
    cases hb

end Effect
end SqlSession
