import SqlSession.Command.Basic
import SqlSession.Proofs.Command.Arguments
import SqlSession.Proofs.Statement.Placeholders

/-!
# Plans of commands

A command is refused because a text is missing, or because its parameters do not go together, or
because a placeholder has no parameter in its own part.  Every other command has a plan, with one
planned statement for each statement of its parts (`plan_verdict`).

The style is a matter of all parts together, the statements and the parameters that they carry are a
matter of each part alone.
-/

namespace SqlSession
namespace Command

open Parameter

/-- There is no part at all, or a part without a text. -/
def Blank (parts : List CommandPart) : Prop :=
  parts = [] ∨ ∃ part ∈ parts, ∀ c ∈ part.text.toList, Text.isBlank c = true

def parameters (parts : List CommandPart) : List Parameter :=
  parts.flatMap CommandPart.parameters

/-- Placeholders are numbered: that is wanted, and all parameters have names. -/
def Numbered (numberNamed : Bool) (parts : List CommandPart) : Prop :=
  numberNamed = true ∧ AllNamed (parameters parts)

/-- A statement uses a placeholder with a name that no parameter of its own part has. -/
def Unsupplied (parts : List CommandPart) : Prop :=
  ∃ part ∈ parts, ∃ s ∈ Statement.split true part.text, ∃ name ∈ s.names,
    ∀ p ∈ part.parameters, ¬ p.HasName name

/-! ## Statements of a part -/

/-- A statement carries the parameters that its names stand for, and all parameters of its part if
it has no names. -/
structure Carries (part : CommandPart) (s : Statement) (planned : PlannedStatement) : Prop where
  sql : planned.sql = s.sql
  whole : s.names = [] → planned.parameters = part.parameters
  each : s.names ≠ [] → List.Forall₂ (Supplies part.parameters) s.names planned.parameters

/-- The argument that a marker in the text stands for is there, for every placeholder. -/
def Filled (part : CommandPart) (s : Statement) (planned : PlannedStatement) : Prop :=
  ∃ written : Statement.Part, s = written.numbered ∧
    ∀ sigil name, .placeholder sigil name ∈ written.pieces →
      ∃ j p, Statement.Piece.numbered written.names (.placeholder sigil name) =
          Statement.argument (j + 1) ∧
        planned.parameters[j]? = some p ∧ Supplies part.parameters (String.ofList name) p

theorem arranged_eq_ok {sql : String} {names : List String} {part : CommandPart}
    {planned : PlannedStatement} (hnames : names ≠ []) :
    PlannedStatement.mk sql <$> arrange names part.parameters = .ok planned ↔
      Carries part ⟨sql, names⟩ planned := by
  constructor
  · intro h
    cases hall : arrange names part.parameters with
    | error err =>
      rw [hall] at h
      cases h
    | ok ps =>
      rw [hall] at h
      cases h
      exact ⟨rfl, fun hnil => absurd hnil hnames, fun _ => arrange_eq_ok.mp hall⟩
  · rintro ⟨rfl, -, heach⟩
    rw [arrange_eq_ok.mpr (heach hnames)]
    rfl

theorem planPart_eq_ok {numbered : Bool} {part : CommandPart} {planned : List PlannedStatement} :
    planPart numbered part = .ok planned ↔
      List.Forall₂ (Carries part) (Statement.split numbered part.text) planned := by
  unfold planPart
  rw [Effect.check_mapM_eq_ok]
  refine iff_of_eq (congrArg (List.Forall₂ · _ _) ?_)
  funext s ps
  obtain ⟨sql, names⟩ := s
  cases names with
  | nil =>
    refine propext ⟨?_, ?_⟩
    · intro h
      cases h
      exact ⟨rfl, fun _ => rfl, fun hne => absurd rfl hne⟩
    · rintro ⟨hsql, hwhole, -⟩
      obtain ⟨sql', ps⟩ := ps
      cases hsql
      cases hwhole rfl
      rfl
  | cons name names => exact propext (arranged_eq_ok (List.cons_ne_nil name names))

/-- A part is refused for a placeholder without a parameter. -/
theorem planPart_eq_error {numbered : Bool} {part : CommandPart} {err : Error}
    (h : planPart numbered part = .error err) :
    ∃ s ∈ Statement.split numbered part.text, ∃ name ∈ s.names,
      (∀ p ∈ part.parameters, ¬ p.HasName name) ∧ err = .binding (.missing name) := by
  obtain ⟨s, hs, hfails⟩ := Effect.exists_of_check_mapM h
  obtain ⟨sql, names⟩ := s
  cases names with
  | nil => cases hfails
  | cons first names =>
    cases hall : arrange (first :: names) part.parameters with
    | ok ps =>
      simp only [hall] at hfails
      cases hfails
    | error other =>
      simp only [hall] at hfails
      cases hfails
      obtain ⟨name, hname, hmissing⟩ := Effect.exists_of_check_mapM hall
      obtain ⟨hnone, rfl⟩ := find_eq_error.mp hmissing
      exact ⟨_, hs, name, hname, hnone, rfl⟩

/-- A part with a placeholder without a parameter is refused. -/
theorem planPart_fails {part : CommandPart} {s : Statement} {name : String}
    (hs : s ∈ Statement.split true part.text) (hname : name ∈ s.names)
    (hnone : ∀ p ∈ part.parameters, ¬ p.HasName name) :
    ∃ err, planPart true part = .error err := by
  cases hplan : planPart true part with
  | error err => exact ⟨err, rfl⟩
  | ok planned =>
    obtain ⟨i, hi⟩ := List.mem_iff_getElem?.mp hs
    obtain ⟨ps, -, hcarries⟩ := Effect.getElem?_of_forall₂ (planPart_eq_ok.mp hplan) hi
    obtain ⟨j, hj⟩ := List.mem_iff_getElem?.mp hname
    obtain ⟨p, -, hp⟩ :=
      Effect.getElem?_of_forall₂ (hcarries.each (List.ne_nil_of_mem hname)) hj
    have hfind := find_eq_ok.mpr hp
    rw [find_eq_error.mpr ⟨hnone, rfl⟩] at hfind
    cases hfind

theorem names_of_split_false {sql : String} {s : Statement} (hs : s ∈ Statement.split false sql) :
    s.names = [] := by
  rw [Statement.split_false] at hs
  obtain ⟨text, -, rfl⟩ := List.mem_map.mp hs
  rfl

theorem filled_of_carries {part : CommandPart} {s : Statement} {planned : PlannedStatement}
    (hs : s ∈ Statement.split true part.text) (h : Carries part s planned) :
    Filled part s planned := by
  rw [Statement.split_parts] at hs
  obtain ⟨written, -, rfl⟩ := List.mem_map.mp hs
  refine ⟨written, rfl, ?_⟩
  intro sigil name hpiece
  have hname : name ∈ written.names :=
    List.mem_eraseDups.mpr (List.mem_filterMap.mpr ⟨_, hpiece, rfl⟩)
  have hplace : (written.names.map String.ofList)[written.names.idxOf name]? =
      some (String.ofList name) := by
    rw [List.getElem?_map, List.getElem?_idxOf hname]
    rfl
  have heach := h.each (List.ne_nil_of_mem (List.mem_of_getElem? hplace))
  obtain ⟨p, hp, hsupplies⟩ := Effect.getElem?_of_forall₂ heach hplace
  exact ⟨written.names.idxOf name, p, rfl, hp, hsupplies⟩

/-- The statements of a part, each as it is planned. -/
def PartPlanned (numbered : Bool) (part : CommandPart) (planned : List PlannedStatement) : Prop :=
  List.Forall₂ (fun s ps => (numbered = true → Filled part s ps) ∧ Carries part s ps)
    (Statement.split numbered part.text) planned

theorem partPlanned_of_planPart {numbered : Bool} {part : CommandPart}
    {planned : List PlannedStatement} (h : planPart numbered part = .ok planned) :
    PartPlanned numbered part planned := by
  have hmem : List.Forall₂ (fun s ps => s ∈ Statement.split numbered part.text ∧ Carries part s ps)
      (Statement.split numbered part.text) planned :=
    (List.forall₂_and_left _ _).mpr ⟨fun _ hs => hs, planPart_eq_ok.mp h⟩
  refine hmem.imp ?_
  rintro s ps ⟨hs, hcarries⟩
  refine ⟨?_, hcarries⟩
  rintro rfl
  exact filled_of_carries hs hcarries

/-! ## All parts -/

/-- The statements of all parts, in the order of the parts. -/
def Planned (numberNamed : Bool) (parts : List CommandPart) (statements : List PlannedStatement) :
    Prop :=
  ∃ numbered planned, (numbered = true ↔ Numbered numberNamed parts) ∧
    statements = planned.flatten ∧ List.Forall₂ (PartPlanned numbered) parts planned

theorem blank_iff {parts : List CommandPart} :
    (parts.isEmpty || parts.any fun part => Text.allBlank part.text) = true ↔ Blank parts := by
  simp only [Bool.or_eq_true, List.isEmpty_iff, List.any_eq_true, Text.allBlank, List.all_eq_true,
    Blank]

variable {numberNamed : Bool} {parts : List CommandPart}

theorem plan_of_blank (h : Blank parts) :
    plan numberNamed parts = .error (.argument .blankCommand) := by
  unfold plan
  rw [if_pos (blank_iff.mpr h)]

theorem plan_of_not_blank (h : ¬ Blank parts) :
    plan numberNamed parts = (do
      let style ← commonStyle (parameters parts)
      let planned ← parts.mapM (planPart (style == some .named && numberNamed))
      return planned.flatten) := by
  unfold plan
  rw [if_neg (mt blank_iff.mp h)]
  rfl

theorem plan_of_mixed (h : ¬ Blank parts) (hmixed : Mixed (parameters parts)) :
    plan numberNamed parts = .error (.binding .mixedStyles) := by
  rw [plan_of_not_blank h, commonStyle_eq_error.mpr ⟨hmixed, rfl⟩]
  rfl

/-- Parameters that go together leave the parts to be planned one by one. -/
theorem plan_of_shared (h : ¬ Blank parts) (hshared : ¬ Mixed (parameters parts)) :
    ∃ numbered, (numbered = true ↔ Numbered numberNamed parts) ∧
      plan numberNamed parts = (do
        let planned ← parts.mapM (planPart numbered)
        return planned.flatten) := by
  cases hstyle : commonStyle (parameters parts) with
  | error err => exact absurd (commonStyle_eq_error.mp hstyle).1 hshared
  | ok style =>
    refine ⟨style == some .named && numberNamed, ?_, ?_⟩
    · rw [Bool.and_eq_true, beq_iff_eq, commonStyle_eq_named hstyle]
      exact and_comm
    · rw [plan_of_not_blank h, hstyle]
      rfl

theorem plan_of_unsupplied (h : ¬ Blank parts) (hshared : ¬ Mixed (parameters parts))
    (hnumbered : Numbered numberNamed parts) (hunsupplied : Unsupplied parts) :
    ∃ name, plan numberNamed parts = .error (.binding (.missing name)) := by
  obtain ⟨numbered, hiff, hplan⟩ := plan_of_shared h hshared
  obtain rfl := hiff.mpr hnumbered
  obtain ⟨part, hpart, s, hs, name, hname, hnone⟩ := hunsupplied
  obtain ⟨err, herr⟩ := planPart_fails hs hname hnone
  obtain ⟨first, hfirst⟩ := Effect.check_mapM_fails hpart herr
  obtain ⟨other, -, hother⟩ := Effect.exists_of_check_mapM hfirst
  obtain ⟨-, -, missing, -, -, rfl⟩ := planPart_eq_error hother
  refine ⟨missing, ?_⟩
  rw [hplan, hfirst]
  rfl

theorem plan_of_supplied (h : ¬ Blank parts) (hshared : ¬ Mixed (parameters parts))
    (hsupplied : ¬ (Numbered numberNamed parts ∧ Unsupplied parts)) :
    ∃ statements, plan numberNamed parts = .ok statements ∧
      Planned numberNamed parts statements := by
  obtain ⟨numbered, hiff, hplan⟩ := plan_of_shared h hshared
  cases hall : parts.mapM (planPart numbered) with
  | error err =>
    obtain ⟨part, hpart, herr⟩ := Effect.exists_of_check_mapM hall
    obtain ⟨s, hs, name, hname, hnone, -⟩ := planPart_eq_error herr
    cases numbered with
    | false => simp [names_of_split_false hs] at hname
    | true => exact absurd ⟨hiff.mp rfl, part, hpart, s, hs, name, hname, hnone⟩ hsupplied
  | ok planned =>
    refine ⟨planned.flatten, by rw [hplan, hall]; rfl, numbered, planned, hiff, rfl, ?_⟩
    exact (Effect.check_mapM_eq_ok.mp hall).imp fun _ _ => partPlanned_of_planPart

theorem plan_eq_mixedStyles :
    plan numberNamed parts = .error (.binding .mixedStyles) ↔
      ¬ Blank parts ∧ Mixed (parameters parts) := by
  by_cases hblank : Blank parts
  · simp [plan_of_blank hblank, hblank]
  by_cases hmixed : Mixed (parameters parts)
  · simp [plan_of_mixed hblank hmixed, hblank, hmixed]
  by_cases hlacks : Numbered numberNamed parts ∧ Unsupplied parts
  · obtain ⟨name, hplan⟩ := plan_of_unsupplied hblank hmixed hlacks.1 hlacks.2
    simp [hplan, hmixed]
  · obtain ⟨statements, hplan, -⟩ := plan_of_supplied hblank hmixed hlacks
    simp [hplan, hmixed]

/-- A command is refused for its texts, or else for its parameters, and otherwise every statement of
every part is planned with the parameters that it needs.  Whether the parameters go together does
not depend on their order or on the parts that they belong to. -/
theorem plan_verdict (numberNamed : Bool) (parts : List CommandPart) :
    ((∃ fault, plan numberNamed parts = .error (.argument fault)) ↔ Blank parts) ∧
    ((∃ fault, plan numberNamed parts = .error (.binding fault)) ↔
      ¬ Blank parts ∧
        (Mixed (parameters parts) ∨ Numbered numberNamed parts ∧ Unsupplied parts)) ∧
    ((∃ statements, plan numberNamed parts = .ok statements ∧
        Planned numberNamed parts statements) ↔
      ¬ Blank parts ∧
        ¬ (Mixed (parameters parts) ∨ Numbered numberNamed parts ∧ Unsupplied parts)) ∧
    (∀ others numberOthers, (parameters parts).Perm (parameters others) →
      (Blank parts ↔ Blank others) →
      (plan numberNamed parts = .error (.binding .mixedStyles) ↔
        plan numberOthers others = .error (.binding .mixedStyles))) := by
  have hmixing : ∀ others numberOthers, (parameters parts).Perm (parameters others) →
      (Blank parts ↔ Blank others) →
      (plan numberNamed parts = .error (.binding .mixedStyles) ↔
        plan numberOthers others = .error (.binding .mixedStyles)) := by
    intro others numberOthers hperm hblank
    rw [plan_eq_mixedStyles, plan_eq_mixedStyles, hblank, mixed_perm hperm]
  by_cases hblank : Blank parts
  · have hplan := @plan_of_blank numberNamed parts hblank
    exact ⟨by simp [hplan, hblank], by simp [hplan, hblank], by simp [hplan, hblank], hmixing⟩
  by_cases hmixed : Mixed (parameters parts)
  · have hplan := @plan_of_mixed numberNamed parts hblank hmixed
    exact ⟨by simp [hplan, hblank], by simp [hplan, hblank, hmixed],
      by simp [hplan, hmixed], hmixing⟩
  by_cases hlacks : Numbered numberNamed parts ∧ Unsupplied parts
  · obtain ⟨name, hplan⟩ := plan_of_unsupplied hblank hmixed hlacks.1 hlacks.2
    exact ⟨by simp [hplan, hblank], by simp [hplan, hblank, hlacks],
      by simp [hplan, hlacks], hmixing⟩
  · obtain ⟨statements, hplan, hplanned⟩ := plan_of_supplied hblank hmixed hlacks
    refine ⟨by simp [hplan, hblank], ?_, ?_, hmixing⟩
    · simp [hplan, hmixed, hlacks]
    · exact ⟨fun _ => ⟨hblank, not_or.mpr ⟨hmixed, hlacks⟩⟩, fun _ => ⟨statements, hplan, hplanned⟩⟩

def onePart : List CommandPart :=
  [⟨"SELECT 1", [.positional (.int 1), .named "a" (.int 2)]⟩]

def twoParts : List CommandPart :=
  [⟨"SELECT 1", [.named "a" (.int 2)]⟩, ⟨"SELECT 2", [.positional (.int 1)]⟩]

/-- Two parameters that do not go together are refused in one part and in two. -/
theorem plan_verdict_regrouped :
    (parameters onePart).Perm (parameters twoParts) ∧ (Blank onePart ↔ Blank twoParts) ∧
      plan true onePart = .error (.binding .mixedStyles) ∧
      plan false twoParts = .error (.binding .mixedStyles) := by
  have hperm : (parameters onePart).Perm (parameters twoParts) := .swap _ _ _
  have hblank : Blank onePart ↔ Blank twoParts :=
    iff_of_false (mt blank_iff.mpr (by decide)) (mt blank_iff.mpr (by decide))
  have hone : plan true onePart = .error (.binding .mixedStyles) := rfl
  exact ⟨hperm, hblank, hone,
    ((plan_verdict true onePart).2.2.2 twoParts false hperm hblank).mp hone⟩

end Command
end SqlSession
