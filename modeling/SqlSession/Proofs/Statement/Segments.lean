import SqlSession.Proofs.Statement.Lexemes

/-!
# Segments and the lexemes around them

The place of a segment among the others is the place of its lexemes in the text, and a lexeme stands
in exactly one segment (`segments_eq_append`, `exists_segment`).
-/

namespace SqlSession
namespace Statement

theorem segments_cons {l : Lexeme} (hl : l ≠ .separator) {ls first : List Lexeme}
    {others : List (List Lexeme)} (h : segments ls = first :: others) :
    segments (l :: ls) = (l :: first) :: others := by
  cases l with
  | separator => exact absurd rfl hl
  | verbatim _ _ | placeholder _ _ | plain _ => simp only [segments, h]

theorem segments_of_no_separator {ls : List Lexeme} (h : Lexeme.separator ∉ ls) :
    segments ls = [ls] := by
  induction ls with
  | nil => rfl
  | cons l ls ih =>
    rw [List.mem_cons, not_or] at h
    exact segments_cons (Ne.symm h.1) (ih h.2)

/-- A text is the texts of its segments with semicolons between them. -/
theorem segmentText_segments (ls : List Lexeme) :
    [';'].intercalate ((segments ls).map segmentText) = segmentText ls := by
  induction ls with
  | nil => rfl
  | cons l ls ih =>
    have hne := segments_ne_nil ls
    rw [segmentText_cons, ← ih]
    cases hls : segments ls with
    | nil => exact absurd hls hne
    | cons first others =>
      by_cases hl : l = .separator
      · subst hl
        simp only [segments, hls, List.map_cons]
        rw [List.intercalate_cons_cons]
        rfl
      · rw [segments_cons hl hls]
        cases others with
        | nil => simp only [List.map_cons, List.map_nil, List.intercalate_singleton, segmentText_cons]
        | cons second others =>
          simp only [List.map_cons, List.intercalate_cons_cons, List.append_assoc, segmentText_cons]

def segmentString (segment : List Lexeme) : String := String.ofList (segmentText segment)

theorem toList_segmentString (segment : List Lexeme) :
    (segmentString segment).toList = segmentText segment :=
  String.toList_ofList

theorem intercalate_segments (ls : List Lexeme) :
    ";".intercalate ((segments ls).map segmentString) = segmentString ls := by
  rw [← String.toList_inj, String.toList_intercalate, List.map_map, toList_segmentString,
    ← segmentText_segments ls]
  exact congrArg _ (List.map_congr_left fun segment _ => toList_segmentString segment)

/-- Behind every segment but the last there is a separator. -/
theorem exists_separator {ls : List Lexeme} {k : Nat} (h : k + 1 < (segments ls).length) :
    ∃ xs ys, ls = xs ++ .separator :: ys ∧ (segments xs).length = k + 1 := by
  induction ls generalizing k with
  | nil => exact absurd h (by simp [segments])
  | cons l ls ih =>
    by_cases hl : l = .separator
    · subst hl
      cases k with
      | zero => exact ⟨[], ls, rfl, rfl⟩
      | succ k =>
        have hlt : k + 1 < (segments ls).length := by
          simp only [segments, List.length_cons] at h
          omega
        obtain ⟨xs, ys, rfl, hlength⟩ := ih hlt
        refine ⟨.separator :: xs, ys, rfl, ?_⟩
        simp only [segments, List.length_cons, hlength]
    · have hlength : ∀ ms : List Lexeme, (segments (l :: ms)).length = (segments ms).length := by
        intro ms
        cases hms : segments ms with
        | nil => exact absurd hms (segments_ne_nil ms)
        | cons first others => rw [segments_cons hl hms, List.length_cons, List.length_cons]
      rw [hlength] at h
      obtain ⟨xs, ys, rfl, hxs⟩ := ih h
      exact ⟨l :: xs, ys, rfl, by rw [hlength, hxs]⟩

theorem take_segments {ls xs ys : List Lexeme} (h : ls = xs ++ .separator :: ys) :
    (segments ls).take (segments xs).length = segments xs := by
  rw [h, segments_append_separator, List.take_left]

/-! ## Places of segments -/

/-- The first segment ends in front of the first separator. -/
theorem segments_eq_cons {ls first : List Lexeme} {others : List (List Lexeme)}
    (h : segments ls = first :: others) :
    Lexeme.separator ∉ first ∧
      ((ls = first ∧ others = []) ∨
        ∃ post, ls = first ++ .separator :: post ∧ segments post = others) := by
  induction ls generalizing first with
  | nil =>
    obtain ⟨rfl, rfl⟩ := List.cons.inj h
    exact ⟨nofun, .inl ⟨rfl, rfl⟩⟩
  | cons l ls ih =>
    by_cases hl : l = .separator
    · subst hl
      obtain ⟨rfl, rfl⟩ := List.cons.inj h
      exact ⟨nofun, .inr ⟨ls, rfl, rfl⟩⟩
    · cases hls : segments ls with
      | nil => exact absurd hls (segments_ne_nil ls)
      | cons first' others' =>
        rw [segments_cons hl hls] at h
        obtain ⟨rfl, rfl⟩ := List.cons.inj h
        obtain ⟨hfirst, hpost⟩ := ih hls
        refine ⟨?_, ?_⟩
        · rw [List.mem_cons, not_or]
          exact ⟨Ne.symm hl, hfirst⟩
        · rcases hpost with ⟨rfl, hothers⟩ | ⟨post, rfl, hothers⟩
          · exact .inl ⟨rfl, hothers⟩
          · exact .inr ⟨post, rfl, hothers⟩

/-- Some segments with the separator behind each of them. -/
def closed (before : List (List Lexeme)) : List Lexeme :=
  before.flatMap (· ++ [.separator])

theorem closed_cons (first : List Lexeme) (before : List (List Lexeme)) :
    closed (first :: before) = first ++ .separator :: closed before := by
  rw [closed, List.flatMap_cons, List.append_assoc]
  rfl

theorem segments_eq_append {ls segment : List Lexeme} {before after : List (List Lexeme)}
    (h : segments ls = before ++ segment :: after) :
    Lexeme.separator ∉ segment ∧
      ∃ more, ls = closed before ++ (segment ++ more) ∧
        ((more = [] ∧ after = []) ∨ ∃ post, more = .separator :: post ∧ segments post = after) := by
  induction before generalizing ls with
  | nil =>
    obtain ⟨hsegment, hmore⟩ := segments_eq_cons h
    refine ⟨hsegment, ?_⟩
    rcases hmore with ⟨rfl, hafter⟩ | ⟨post, rfl, hafter⟩
    · refine ⟨[], ?_, .inl ⟨rfl, hafter⟩⟩
      rw [List.append_nil]
      rfl
    · exact ⟨.separator :: post, rfl, .inr ⟨post, rfl, hafter⟩⟩
  | cons first before ih =>
    obtain ⟨-, ⟨-, hnil⟩ | ⟨post, rfl, hpost⟩⟩ := segments_eq_cons h
    · cases before <;> cases hnil
    · obtain ⟨hsegment, more, rfl, hmore⟩ := ih hpost
      refine ⟨hsegment, more, ?_, hmore⟩
      rw [closed_cons, List.append_assoc]
      rfl

/-- Every lexeme but a separator stands in a segment. -/
theorem exists_segment (pre : List Lexeme) {l : Lexeme} (hl : l ≠ .separator) (post : List Lexeme) :
    ∃ before xs ys after, segments (pre ++ l :: post) = before ++ (xs ++ l :: ys) :: after ∧
      pre = closed before ++ xs := by
  induction pre with
  | nil =>
    cases hpost : segments post with
    | nil => exact absurd hpost (segments_ne_nil post)
    | cons ys after => exact ⟨[], [], ys, after, segments_cons hl hpost, rfl⟩
  | cons m pre ih =>
    obtain ⟨before, xs, ys, after, hsegments, hpre⟩ := ih
    by_cases hm : m = .separator
    · subst hm
      refine ⟨[] :: before, xs, ys, after, ?_, ?_⟩
      · rw [List.cons_append, segments, hsegments]
        rfl
      · rw [closed_cons, hpre]
        rfl
    · cases before with
      | nil =>
        refine ⟨[], m :: xs, ys, after, segments_cons hm hsegments, ?_⟩
        rw [hpre]
        rfl
      | cons first before =>
        refine ⟨(m :: first) :: before, xs, ys, after, segments_cons hm hsegments, ?_⟩
        rw [hpre, closed_cons, closed_cons]
        rfl

end Statement
end SqlSession
