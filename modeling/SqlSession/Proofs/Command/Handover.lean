import SqlSession.Proofs.Command.Dispatch
import SqlSession.Proofs.Engine.Handles

/-!
# Parameters that are handed over

The values of parameters are handed over one after the other, and a null is not.  That takes these values
in and does nothing else to the engine (`Argument.ofParameters_keeping`), also when it stops at a value
that does not fit.  What an argument passes it goes on to pass, whatever is done with the engine
(`Argument.handed_over`).
-/

namespace SqlSession

namespace Engine

/-- The engine with these values behind those that it has. -/
def keeping (e : Engine) (vs : List Value) : Engine :=
  { e with values := e.values ++ vs.toArray }

theorem keeping_nil (e : Engine) : e.keeping [] = e := by
  simp [keeping]

theorem keeping_keeping (e : Engine) (vs ws : List Value) :
    (e.keeping vs).keeping ws = e.keeping (vs ++ ws) := by
  simp [keeping, Array.append_assoc]

variable {e e' : Engine} {type : Oid} {v : Value} {d : Datum}

theorem encode_keeping (h : Engine.encode type v e = .ok d e') :
    e' = e.keeping [v] ∧ d ≠ Datum.null := by
  unfold Engine.encode at h
  split at h
  · cases h
    refine ⟨?_, fun hnull => ?_⟩
    · simp [keeping]
    · cases hnull
  · cases h

/-- A value that is kept is decoded, unless the decoding of its type has been made to fail. -/
theorem decode_of_value? (hv : e.value? d = some v) (hfault : e.faults.decode ≠ some type) :
    e.decode d type = .ok v := by
  unfold decode
  rw [if_neg hfault, hv]

end Engine

/-- The values of parameters that are handed over. -/
def Parameter.handed (ps : List Parameter) : List Value :=
  (ps.map Parameter.value).filter fun v => !v.isNull

theorem Parameter.handed_cons (p : Parameter) (ps : List Parameter) :
    handed (p :: ps) = handed [p] ++ handed ps := by
  unfold handed
  rw [← List.filter_append]
  rfl

namespace Argument

open Engine Parameter

variable {e e' : Engine} {p : Parameter} {ps : List Parameter} {a : Argument} {as : List Argument}

/-! ## What an argument passes -/

/-- What the engine gets for a parameter: the null datum with the null marker, or another datum, which is
decoded to the value. -/
inductive Passes (e : Engine) (p : Parameter) : Argument → Prop
  | null (value : p.value = .null) : Passes e p ⟨p.typeOid, Datum.null, true⟩
  | value {d : Datum} (value : p.value ≠ .null) (datum : d ≠ Datum.null)
      (decoded : ∀ type, e.faults.decode ≠ some type → e.decode d type = .ok p.value) :
      Passes e p ⟨p.typeOid, d, false⟩

/-- The engine has this argument for a parameter, and the null datum for a null only. -/
structure Carries (e : Engine) (p : Parameter) (a : Argument) : Prop extends StandsFor e p a where
  null : a.datum = Datum.null ↔ a.isNull = true

theorem Carries.mono (h : Engine.Keeps e e') (ha : a.Carries e p) : a.Carries e' p :=
  { ha with value := h.value? ha.value }

theorem Carries.after (ha : a.Carries e p) (operations : List Operation) :
    a.Carries (e.after operations) p := by
  have hdenotes : e.Denotes (.datum a.datum) (.value p.value) := ha.value
  exact { ha with value := (issues_after e operations).keeps hdenotes }

theorem Carries.passes (ha : a.Carries e p) : a.Passes e p := by
  obtain ⟨⟨htype, hisNull, hvalue, -⟩, hnull⟩ := ha
  obtain ⟨type, datum, isNull⟩ := a
  dsimp only at htype hisNull hvalue hnull
  subst htype hisNull
  cases h : p.value.isNull with
  | true =>
    obtain rfl := hnull.mpr h
    exact .null (Value.isNull_iff.mp h)
  | false =>
    refine .value ?_ ?_ fun _ => decode_of_value? hvalue
    · rw [Ne, ← Value.isNull_iff, h]
      exact Bool.false_ne_true
    · rw [Ne, hnull, h]
      exact Bool.false_ne_true

/-! ## Handing over -/

theorem ofParameter_carries (h : ofParameter p e = .ok a e') :
    e' = e.keeping (handed [p]) ∧ a.Carries e' p := by
  obtain ⟨-, hstands⟩ := ofParameter_stores h
  unfold ofParameter at h
  split at h
  · next hnull =>
    obtain ⟨rfl, rfl⟩ := Effect.pure_eq_ok.mp h
    have hnone : handed [p] = [] := by simp [handed, hnull]
    rw [hnone, keeping_nil]
    exact ⟨rfl, hstands, by simp⟩
  · next hnull =>
    obtain ⟨d, e₁, hd, h⟩ := Effect.bind_eq_ok.mp h
    obtain ⟨rfl, rfl⟩ := Effect.pure_eq_ok.mp h
    obtain ⟨rfl, hne⟩ := encode_keeping hd
    have hone : handed [p] = [p.value] := by simp [handed, hnull]
    rw [hone]
    exact ⟨rfl, hstands, by simpa using hne⟩

theorem ofParameters_carries (h : ofParameters ps e = .ok as e') :
    List.Forall₂ (fun p a => a.Carries e' p) ps as := by
  obtain ⟨-, has⟩ := Effect.mapM_forall₂ (P := fun _ => True) (Q := fun e p a => a.Carries e p)
    Stores.refl (fun h h' => h.trans h') (fun _ h => h) (fun h ha => ha.mono h.continues.keeps)
    (fun _ h => ⟨(ofParameter_stores h).1, (ofParameter_carries h).2⟩) trivial h
  exact has

/-- To hand parameters over takes their values in, and nothing else is done. -/
theorem ofParameters_keeping (h : ofParameters ps e = .ok as e') : e' = e.keeping (handed ps) := by
  induction ps generalizing e as with
  | nil =>
    obtain ⟨-, rfl⟩ := Effect.mapM_nil_eq_ok.mp h
    exact (keeping_nil e).symm
  | cons p ps ih =>
    obtain ⟨a, e₁, rest, ha, hrest, -⟩ := Effect.mapM_cons_eq_ok.mp h
    obtain ⟨rfl, -⟩ := ofParameter_carries ha
    rw [ih hrest, keeping_keeping, ← handed_cons]

/-- How it ends to hand parameters over.  Either there is an argument for every parameter, which now and
later passes its value, or there is a first value that does not fit. -/
inductive HandedOver (e : Engine) (ps : List Parameter) :
    EStateM.Result Error Engine (List Argument) → Prop
  | all {as : List Argument} (length : as.length = ps.length)
      (markers : as.map marker = ps.map PlannedStatement.marker)
      (passes : ∀ later, List.Forall₂ (Passes ((e.keeping (handed ps)).after later)) ps as) :
      HandedOver e ps (.ok as (e.keeping (handed ps)))
  | misfit {before after : List Parameter} {p : Parameter} (position : ps = before ++ p :: after)
      (fits : ∀ q ∈ before, ¬ q.Misfit) (misfit : p.Misfit) :
      HandedOver e ps
        (.error (.binding (.unencodable p.value.kind p.typeOid)) (e.keeping (handed before)))

theorem handed_over (e : Engine) (ps : List Parameter) : HandedOver e ps (ofParameters ps e) := by
  cases h : ofParameters ps e with
  | ok as e' =>
    have hcarries := ofParameters_carries h
    obtain rfl := ofParameters_keeping h
    refine .all hcarries.length_eq.symm ?_ fun later => ?_
    · exact PlannedStatement.map_of_standFor
        (fun _ _ => PlannedStatement.marker_of_standsFor) (ofParameters_stores h).2
    · exact hcarries.imp fun _ _ ha => (ha.after later).passes
  | error err e' =>
    obtain ⟨before, p, after, as, e₁, rfl, hbefore, hp⟩ := Effect.mapM_eq_error h
    obtain ⟨rfl, hmisfit, rfl⟩ := ofParameter_eq_error hp
    obtain rfl := ofParameters_keeping hbefore
    exact .misfit rfl (fits_of_ofParameters hbefore) hmisfit

end Argument

namespace Engine

/-- A new engine keeps under every handle what it has been handed out for, whatever is done with it, and
hands out no handle twice and never the null datum.  Parameters are handed over in the same way, and an
engine that cannot take all of them has only taken values in. -/
theorem handles_stand (operations : List Operation) :
    let e := initial.after operations
    let receipts := initial.issued operations
    (receipts.map Prod.fst).Nodup ∧
      Handle.datum Datum.null ∉ receipts.map Prod.fst ∧
      (∀ type, e.faults.decode ≠ some type → e.decode Datum.null type = .ok .null) ∧
      (∀ later, ∀ r ∈ receipts, ∀ m, (e.after later).Denotes r.1 m ↔ m = r.2) ∧
      ∀ ps, Argument.HandedOver e ps (Argument.ofParameters ps e) := by
  intro e receipts
  have hissues : Issues initial receipts e := issues_after initial operations
  refine ⟨hissues.distinct, ?_, fun _ => decode_of_value? e.value?_null, ?_,
    Argument.handed_over e⟩
  · intro hmem
    obtain ⟨⟨handle, m⟩, hr, hnull⟩ := List.mem_map.mp hmem
    obtain rfl : handle = .datum Datum.null := hnull
    exact hissues.new _ hr (.value .null) initial.value?_null
  · intro later r hr m
    have hstands := (issues_after e later).keeps (hissues.stand r hr)
    constructor
    · intro hm
      exact hm.unique hstands
    · rintro rfl
      exact hstands

/-- A table with one value and a null in it, and then a plan for the same query. -/
def queried : List Operation :=
  [.configure (.script "SELECT n" (.rows [Column.undescribed] [[.int 1], [.null]])),
    .execute "SELECT n" false,
    .prepare "SELECT n" []]

def sevenAndNull : List Parameter := [.positional (.int 7), .positional .null]

theorem handles_stand_queried :
    (initial.issued queried).map Prod.fst = [.table ⟨0⟩, .datum ⟨1⟩, .plan ⟨0⟩] ∧
      (∀ later, ∀ r ∈ initial.issued queried, ((initial.after queried).after later).Denotes r.1 r.2) ∧
      ∃ as e', Argument.ofParameters sevenAndNull (initial.after queried) = .ok as e' ∧
        as.map Argument.datum = [⟨2⟩, Datum.null] ∧ as.map Argument.marker = [' ', 'n'] ∧
        ∀ later, List.Forall₂ (Argument.Passes (e'.after later)) sevenAndNull as := by
  have hdatums : (match Argument.ofParameters sevenAndNull (initial.after queried) with
      | .ok as _ => as.map Argument.datum
      | .error _ _ => []) = [⟨2⟩, Datum.null] := by decide +kernel
  obtain ⟨-, -, -, hstand, hover⟩ := handles_stand queried
  refine ⟨by decide +kernel, fun later r hr => (hstand later r hr r.2).mpr rfl, ?_⟩
  have hhanded := hover sevenAndNull
  generalize Argument.ofParameters sevenAndNull (initial.after queried) = result at hdatums hhanded ⊢
  cases hhanded with
  | all _ hmarkers hpasses => exact ⟨_, _, rfl, hdatums, hmarkers, hpasses⟩
  | misfit => cases hdatums

end Engine
end SqlSession
