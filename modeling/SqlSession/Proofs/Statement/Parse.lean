import SqlSession.Proofs.Statement.Chunks
import SqlSession.Proofs.Statement.Lexemes
import SqlSession.Proofs.Statement.Simulation

/-!
# The scanner finds the statements

`Scanner.run_scan` takes the scanner from the start of a text over all of its lexemes to the end,
and `Scanner.parse_eq_split` says that the statements it finds are those of the text.
-/

namespace SqlSession
namespace Statement
namespace Scanner

open Text

variable {numbered : Bool} {s : Scanner}

/-- The scanner behind some lexemes that are all that is left. -/
def absorbAll (numbered : Bool) (s : Scanner) : List Lexeme → Scanner
  | [] => s
  | l :: ls => absorbAll numbered (s.absorb numbered l (utf8 (segmentText ls))) ls

/-- The scanners at the starts of some lexemes that are all that is left. -/
def boundaries (numbered : Bool) (s : Scanner) : List Lexeme → List Scanner
  | [] => []
  | l :: ls => s :: boundaries numbered (s.absorb numbered l (utf8 (segmentText ls))) ls

/-! ## The whole text -/

theorem passed_of_passes {l : Lexeme} {rest : List Char} {mode : Mode}
    (h : Passes numbered s ((s.absorb numbered l (utf8 rest)).inMode mode))
    (hrest : s.rest = utf8 (l.text ++ rest)) :
    (s.absorb numbered l (utf8 rest)).passed = s.passed ++ utf8 l.text := by
  obtain ⟨more, hrun, -⟩ := h
  have hbytes : (s.absorb numbered l (utf8 rest)).passed ++ (s.absorb numbered l (utf8 rest)).rest =
      s.passed ++ s.rest := hrun.bytes
  rw [absorb_rest, hrest, utf8_append, ← List.append_assoc] at hbytes
  exact List.append_cancel_right hbytes

/-- The scanner goes from lexeme to lexeme up to the end of the text.  It is visited at the start of
each of them, and is quiet wherever else it is. -/
theorem run_scan {before : Option Char} {cs : List Char} (hmode : s.mode = .normal)
    (hrest : s.rest = utf8 cs) (hbefore : Agrees before s.passed) :
    ∃ t visited, Run numbered s visited t ∧ t.rest = [] ∧
      t.finish = (absorbAll numbered s (Lexeme.scan before cs)).finish ∧
      (∀ u ∈ boundaries numbered s (Lexeme.scan before cs), u ∈ visited) ∧
      (∀ u ∈ visited, u ∈ boundaries numbered s (Lexeme.scan before cs) ∨ u.Quiet) := by
  fun_induction Lexeme.scan before cs generalizing s with
  | case1 before =>
    exact ⟨s, [], .refl s, hrest, rfl, List.forall_mem_nil _, List.forall_mem_nil _⟩
  | case2 before c rest found =>
    rename_i ih
    have hfound : PassesLexeme numbered s found := passes_next hmode hrest hbefore
    obtain ⟨mode, hpasses, hend⟩ := hfound
    have htext : found.1.text ++ found.2 = c :: rest := Lexeme.text_next before c rest
    have hpassed := passed_of_passes hpasses (by rw [htext, hrest])
    obtain ⟨more, hrun, hquiet⟩ := hpasses
    simp only [absorbAll, boundaries, segmentText_scan]
    have hafter : Agrees found.1.text.getLast? (s.absorb numbered found.1 (utf8 found.2)).passed := by
      rw [hpassed]
      exact agrees_append (Lexeme.text_next_ne_nil before c rest) s.passed
    rcases hend with rfl | hend
    · rw [inMode_normal] at hrun
      obtain ⟨t, visited, hrun', hlast, hfinish, hin, hout⟩ :=
        ih (absorb_mode _ _) (absorb_rest _ _) hafter
      refine ⟨t, s :: more ++ visited, hrun.trans hrun', hlast, hfinish, ?_, ?_⟩
      · intro u hu
        rcases List.mem_cons.mp hu with rfl | hu
        · exact List.mem_cons_self
        · exact List.mem_append_right _ (hin u hu)
      · intro u hu
        rcases List.mem_append.mp hu with hu | hu
        · rcases List.mem_cons.mp hu with rfl | hu
          · exact .inl List.mem_cons_self
          · exact .inr (hquiet u hu)
        · rcases hout u hu with hu | hu
          · exact .inl (List.mem_cons_of_mem s hu)
          · exact .inr hu
    · rw [hend, Lexeme.scan_nil]
      rw [hend] at hrun
      refine ⟨_, s :: more, hrun, absorb_rest _ _, rfl, ?_, ?_⟩
      · intro u hu
        rw [List.mem_singleton.mp hu]
        exact List.mem_cons_self
      · intro u hu
        rcases List.mem_cons.mp hu with rfl | hu
        · exact .inl List.mem_cons_self
        · exact .inr (hquiet u hu)

/-! ## Chunks -/

theorem absorb_of_ne {l : Lexeme} (hl : l ≠ .separator) (rest : List UInt8) :
    (s.absorb numbered l rest).chunks = s.chunks ∧
      Chunk.mk (s.absorb numbered l rest).current (s.absorb numbered l rest).names =
        Chunk.write numbered ⟨s.current, s.names⟩ l := by
  cases l with
  | separator => exact absurd rfl hl
  | placeholder sigil name => cases numbered <;> exact ⟨rfl, rfl⟩
  | verbatim _ _ | plain _ => exact ⟨rfl, rfl⟩

/-- The segments of the lexemes that are left, the first of which goes on with the current chunk. -/
theorem finish_absorbAll (ls : List Lexeme) (s : Scanner) :
    ∃ first others, segments ls = first :: others ∧
      (absorbAll numbered s ls).finish = s.chunks ++
        first.foldl (Chunk.write numbered) ⟨s.current, s.names⟩ ::
          others.map (chunkOf numbered) := by
  induction ls generalizing s with
  | nil => exact ⟨[], [], rfl, rfl⟩
  | cons l ls ih =>
    obtain ⟨first, others, hsegments, hfinish⟩ := ih (s.absorb numbered l (utf8 (segmentText ls)))
    by_cases hl : l = .separator
    · subst hl
      refine ⟨[], first :: others, by rw [segments, hsegments], ?_⟩
      show (absorbAll numbered (s.absorb numbered .separator _) ls).finish = _
      rw [hfinish, List.map_cons, ← foldl_write]
      exact List.append_assoc _ _ _
    · obtain ⟨hchunks, hwrite⟩ := @absorb_of_ne numbered s l hl (utf8 (segmentText ls))
      refine ⟨l :: first, others, ?_, ?_⟩
      · cases l with
        | separator => exact absurd rfl hl
        | verbatim _ _ | placeholder _ _ | plain _ => simp only [segments, hsegments]
      · show (absorbAll numbered (s.absorb numbered l _) ls).finish = _
        rw [hfinish, hchunks, hwrite]
        rfl

theorem toUTF8_eq (sql : String) : sql.toUTF8.data.toList = utf8 sql.toList := by
  rw [← utf8_toList, List.toList_data_toByteArray]

theorem finish_run (numbered : Bool) (sql : String) :
    ((start sql.toUTF8.data.toList).run numbered).finish =
      (segments (Lexeme.scan none sql.toList)).map (chunkOf numbered) := by
  rw [toUTF8_eq]
  obtain ⟨t, visited, hrun, hend, hlast, -, -⟩ :=
    @run_scan numbered (start (utf8 sql.toList)) none sql.toList rfl rfl agrees_nil
  obtain ⟨first, others, hsegments, hfinish⟩ :=
    @finish_absorbAll numbered (Lexeme.scan none sql.toList) (start (utf8 sql.toList))
  rw [hrun.run_eq, run_of_end hend, hlast, hsegments, List.map_cons, ← foldl_write]
  exact hfinish

theorem parse_eq_split (numbered : Bool) (sql : String) : parse numbered sql = split numbered sql := by
  have hstatement : Chunk.statement? ∘ chunkOf numbered = ofSegment? numbered :=
    funext (statement?_chunkOf numbered)
  unfold parse split
  rw [finish_run, List.filterMap_map, hstatement]

/-! ## Where the scanner looks closely -/

theorem mem_boundaries {ls : List Lexeme} (hmode : s.mode = .normal)
    (hrest : s.rest = utf8 (segmentText ls)) {u : Scanner} (h : u ∈ boundaries numbered s ls) :
    ∃ pre l post, ls = pre ++ l :: post ∧ u.mode = .normal ∧
      u.rest = utf8 (segmentText (l :: post)) := by
  induction ls generalizing s with
  | nil => cases h
  | cons l ls ih =>
    rcases List.mem_cons.mp h with rfl | h
    · exact ⟨[], l, ls, rfl, hmode, hrest⟩
    · obtain ⟨pre, m, post, rfl, hu⟩ := ih (absorb_mode _ _) (absorb_rest _ _) h
      exact ⟨l :: pre, m, post, rfl, hu⟩

theorem exists_boundary {pre post : List Lexeme} {l : Lexeme} (hmode : s.mode = .normal)
    (hrest : s.rest = utf8 (segmentText (pre ++ l :: post))) :
    ∃ u ∈ boundaries numbered s (pre ++ l :: post), u.mode = .normal ∧
      u.rest = utf8 (segmentText (l :: post)) := by
  induction pre generalizing s with
  | nil => exact ⟨s, List.mem_cons_self, hmode, hrest⟩
  | cons m pre ih =>
    have habsorb := @absorb_rest numbered s m (utf8 (segmentText (pre ++ l :: post)))
    obtain ⟨u, hu, hunormal, hurest⟩ := ih (absorb_mode _ _) habsorb
    exact ⟨u, List.mem_cons_of_mem s hu, hunormal, hurest⟩

theorem passed_of_reaches {sql : String} {pre post : List Lexeme} {u : Scanner}
    (h : Reaches numbered (start sql.toUTF8.data.toList) u)
    (hscan : Lexeme.scan none sql.toList = pre ++ post) (hrest : u.rest = utf8 (segmentText post)) :
    u.passed = utf8 (segmentText pre) := by
  obtain ⟨visited, hrun⟩ := h
  have hbytes : u.passed ++ u.rest = sql.toUTF8.data.toList := hrun.bytes
  rw [toUTF8_eq, ← segmentText_scan none sql.toList, hscan, segmentText_append, utf8_append,
    hrest] at hbytes
  exact List.append_cancel_right hbytes

/-- The scanner reaches the start of every lexeme. -/
theorem reaches_lexeme (numbered : Bool) {sql : String} {pre post : List Lexeme} {l : Lexeme}
    (h : Lexeme.scan none sql.toList = pre ++ l :: post) :
    ∃ u, Reaches numbered (start sql.toUTF8.data.toList) u ∧ u.mode = .normal ∧
      u.passed = utf8 (segmentText pre) ∧ u.rest = utf8 (segmentText (l :: post)) := by
  obtain ⟨t, visited, hrun, -, -, hin, -⟩ :=
    @run_scan numbered (start (utf8 sql.toList)) none sql.toList rfl rfl agrees_nil
  have hstart : (start (utf8 sql.toList)).rest = utf8 (segmentText (pre ++ l :: post)) := by
    rw [← h, segmentText_scan]
    rfl
  obtain ⟨u, hu, hmode, hrest⟩ := @exists_boundary numbered _ pre post l rfl hstart
  rw [← h] at hu
  have hreaches : Reaches numbered (start sql.toUTF8.data.toList) u := by
    rw [toUTF8_eq]
    exact hrun.reaches_of_mem (hin u hu)
  exact ⟨u, hreaches, hmode, passed_of_reaches hreaches h hrest, hrest⟩

/-- A scanner that is not quiet stands at the start of a lexeme. -/
theorem lexeme_of_reaches {sql : String} {u : Scanner}
    (h : Reaches numbered (start sql.toUTF8.data.toList) u) (hloud : ¬ u.Quiet) :
    ∃ pre l post, Lexeme.scan none sql.toList = pre ++ l :: post ∧
      u.passed = utf8 (segmentText pre) ∧ u.rest = utf8 (segmentText (l :: post)) := by
  have hne : u.rest ≠ [] := by
    intro hnil
    refine hloud fun _ b hb => ?_
    rw [hnil] at hb
    cases hb
  obtain ⟨t, visited, hrun, hend, -, -, hout⟩ :=
    @run_scan numbered (start (utf8 sql.toList)) none sql.toList rfl rfl agrees_nil
  have hreaches := h
  rw [toUTF8_eq] at hreaches
  have hu := (hout u (hrun.mem_of_reaches hend hreaches hne)).resolve_right hloud
  have hstart : (start (utf8 sql.toList)).rest =
      utf8 (segmentText (Lexeme.scan none sql.toList)) := by
    rw [segmentText_scan]
    rfl
  obtain ⟨pre, l, post, hscan, -, hrest⟩ := mem_boundaries rfl hstart hu
  exact ⟨pre, l, post, hscan, passed_of_reaches h hscan hrest, hrest⟩

end Scanner
end Statement
end SqlSession
