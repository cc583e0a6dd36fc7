import SqlSession.Cursor.Lifetime
import SqlSession.Proofs.Statement.Joined

/-!
# A command with two texts

A semicolon between two texts and two parts of a command are the same for whoever runs the command,
if the parts have the same parameters and the scan of the first text ends in the normal mode
(`joined_by_semicolon`).
-/

namespace SqlSession
namespace Command

open Parameter Statement

theorem commonStyle_append_self (ps : List Parameter) : commonStyle (ps ++ ps) = commonStyle ps := by
  cases ps with
  | nil => rfl
  | cons p ps =>
    have hall : (ps ++ p :: ps).all (fun q => q.style == p.style) =
        ps.all fun q => q.style == p.style := by
      rw [List.all_append, List.all_cons, beq_self_eq_true, Bool.true_and, Bool.and_self]
    simp only [commonStyle, List.cons_append, hall]

section Joined

variable {flag : Bool} {a : String} (hends : EndsNormal flag a) (b : String)
include hends

theorem planPart_joined (numbered : Bool) (ps : List Parameter) :
    planPart numbered ⟨a ++ ";" ++ b, ps⟩ = do
      let first ← planPart numbered ⟨a, ps⟩
      let second ← planPart numbered ⟨b, ps⟩
      return first ++ second := by
  unfold planPart
  rw [split_joined hends, List.mapM_append]

theorem planParts_joined (numbered : Bool) (ps : List Parameter) :
    List.flatten <$> [⟨a ++ ";" ++ b, ps⟩].mapM (planPart numbered) =
      List.flatten <$> [⟨a, ps⟩, ⟨b, ps⟩].mapM (planPart numbered) := by
  simp only [List.mapM_cons, List.mapM_nil, planPart_joined hends]
  cases planPart numbered ⟨a, ps⟩ with
  | error err => rfl
  | ok first =>
    cases planPart numbered ⟨b, ps⟩ with
    | error err => rfl
    | ok second =>
      show Except.ok [first ++ second].flatten = Except.ok [first, second].flatten
      simp only [List.flatten_cons, List.flatten_nil, List.append_nil]

theorem plan_joined {b : String} (ha : Text.allBlank a = false) (hb : Text.allBlank b = false)
    (numberNamed : Bool) (ps : List Parameter) :
    plan numberNamed [⟨a ++ ";" ++ b, ps⟩] = plan numberNamed [⟨a, ps⟩, ⟨b, ps⟩] := by
  have hall : Text.allBlank (a ++ ";" ++ b) = false := by
    unfold Text.allBlank at ha ⊢
    rw [String.toList_append, String.toList_append, List.all_append, List.all_append, ha]
    rfl
  simp only [plan, List.isEmpty_cons, List.any_cons, List.any_nil, ha, hb, hall, Bool.or_false,
    Bool.false_eq_true, if_false, List.flatMap_cons, List.flatMap_nil, List.append_nil,
    commonStyle_append_self]
  exact congrArg (commonStyle ps >>= ·) (funext fun _ => planParts_joined hends b _ ps)

theorem openCursor_joined {b : String} (ha : Text.allBlank a = false)
    (hb : Text.allBlank b = false) (ps : List Parameter) (behavior : Behavior) :
    openCursor ⟨[⟨a ++ ";" ++ b, ps⟩], behavior⟩ = openCursor ⟨[⟨a, ps⟩, ⟨b, ps⟩], behavior⟩ := by
  funext c
  simp only [openCursor, plan_joined hends ha hb]

end Joined

/-- If the scan of a text ends in the normal mode, however placeholders are treated, the statements
of this text and another one with a semicolon between them are those of the one and then those of
the other, and each text numbers its own placeholders.  So one part with both texts has the same plan
as two parts with a text each, or is refused for the same reason, and a command over it does the same
on every connection. -/
theorem joined_by_semicolon {flag : Bool} {a : String} (hends : EndsNormal flag a) (b : String) :
    (∀ numbered, EndsNormal numbered a) ∧
    (∀ numbered, split numbered (a ++ ";" ++ b) = split numbered a ++ split numbered b ∧
      Scanner.parse numbered (a ++ ";" ++ b) =
        Scanner.parse numbered a ++ Scanner.parse numbered b) ∧
    (Text.allBlank a = false → Text.allBlank b = false → ∀ ps,
      (∀ numberNamed,
        plan numberNamed [⟨a ++ ";" ++ b, ps⟩] = plan numberNamed [⟨a, ps⟩, ⟨b, ps⟩]) ∧
      ∀ behavior,
        openCursor ⟨[⟨a ++ ";" ++ b, ps⟩], behavior⟩ =
          openCursor ⟨[⟨a, ps⟩, ⟨b, ps⟩], behavior⟩ ∧
        scalar ⟨[⟨a ++ ";" ++ b, ps⟩], behavior⟩ = scalar ⟨[⟨a, ps⟩, ⟨b, ps⟩], behavior⟩ ∧
        nonQuery ⟨[⟨a ++ ";" ++ b, ps⟩], behavior⟩ =
          nonQuery ⟨[⟨a, ps⟩, ⟨b, ps⟩], behavior⟩) := by
  refine ⟨fun _ => endsNormal_congr hends, fun numbered => ⟨split_joined hends numbered b, ?_⟩, ?_⟩
  · rw [Scanner.parse_eq_split, Scanner.parse_eq_split, Scanner.parse_eq_split]
    exact split_joined hends numbered b
  · intro ha hb ps
    refine ⟨fun numberNamed => plan_joined hends ha hb numberNamed ps, fun behavior => ?_⟩
    have hopen := openCursor_joined hends ha hb ps behavior
    refine ⟨hopen, ?_, ?_⟩
    · funext c
      simp only [scalar, withCursor, hopen]
    · funext c
      simp only [nonQuery, withCursor, hopen]

theorem joined_by_semicolon_quoted :
    EndsNormal false "SELECT '@a;', @a, $x$;$x$" ∧ Text.allBlank "SELECT '@a;', @a, $x$;$x$" = false ∧
    Text.allBlank "SELECT @b, @a" = false ∧
    split true ("SELECT '@a;', @a, $x$;$x$" ++ ";" ++ "SELECT @b, @a") =
      split true "SELECT '@a;', @a, $x$;$x$" ++ split true "SELECT @b, @a" ∧
    plan true [⟨"SELECT '@a;', @a, $x$;$x$" ++ ";" ++ "SELECT @b, @a",
        [.named "a" (.int 1), .named "b" (.int 2)]⟩] =
      plan true [⟨"SELECT '@a;', @a, $x$;$x$", [.named "a" (.int 1), .named "b" (.int 2)]⟩,
        ⟨"SELECT @b, @a", [.named "a" (.int 1), .named "b" (.int 2)]⟩] := by
  have hends : EndsNormal false "SELECT '@a;', @a, $x$;$x$" := by
    unfold EndsNormal
    decide +kernel
  have hfirst : Text.allBlank "SELECT '@a;', @a, $x$;$x$" = false := by decide
  have hsecond : Text.allBlank "SELECT @b, @a" = false := by decide
  obtain ⟨-, hsplit, hplans⟩ := joined_by_semicolon hends "SELECT @b, @a"
  exact ⟨hends, hfirst, hsecond, (hsplit true).1, (hplans hfirst hsecond _).1 true⟩

end Command
end SqlSession
