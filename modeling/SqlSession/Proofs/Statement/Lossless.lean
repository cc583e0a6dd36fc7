import SqlSession.Proofs.Statement.Parse
import SqlSession.Proofs.Statement.Rescan

/-!
# Nothing is lost when a text is split

The segments of a text are what stands between the semicolons that the scanner meets in the normal
mode, and the statements are the segments that are not blank, without the blanks around them
(`split_lossless`).  What the scanner does not look into is kept (`Scanner.opaque_is_kept`).
-/

namespace SqlSession
namespace Statement

open Text

/-- When it has passed so many bytes the scanner meets a semicolon in the normal mode. -/
def CutAt (numbered : Bool) (sql : String) (n : Nat) : Prop :=
  ∃ u, Scanner.Reaches numbered (.start sql.toUTF8.data.toList) u ∧ u.mode = .normal ∧
    u.rest.head? = some ';'.toUInt8 ∧ u.passed.length = n

/-! ## Segments -/

theorem cutAt_iff (numbered : Bool) (sql : String) (n : Nat) :
    CutAt numbered sql n ↔
      ∃ pre post, Lexeme.scan none sql.toList = pre ++ .separator :: post ∧
        n = (utf8 (segmentText pre)).length := by
  constructor
  · intro hgiven
    obtain ⟨u, hreaches, hmode, hhead, rfl⟩ := hgiven
    have hloud : ¬ u.Quiet := fun hquiet => (hquiet hmode _ hhead).1 rfl
    obtain ⟨pre, l, post, hscan, hpassed, hrest⟩ := Scanner.lexeme_of_reaches hreaches hloud
    obtain ⟨c, rest, htext, hl⟩ := Lexeme.next_of_suffix hscan
    rw [hrest, head?_utf8 (by decide), htext, List.head?_cons] at hhead
    obtain rfl : c = ';' := Option.some.inj hhead
    rw [Lexeme.next_semicolon] at hl
    subst hl
    exact ⟨pre, post, hscan, congrArg List.length hpassed⟩
  · intro hgiven
    obtain ⟨pre, post, hscan, rfl⟩ := hgiven
    obtain ⟨u, hreaches, hmode, hpassed, hrest⟩ := Scanner.reaches_lexeme numbered hscan
    refine ⟨u, hreaches, hmode, ?_, congrArg List.length hpassed⟩
    rw [hrest, head?_utf8 (by decide)]
    rfl

/-- The text is cut behind each of its segments but the last. -/
theorem cutAt_iff_segments (numbered : Bool) (sql : String) (n : Nat) :
    CutAt numbered sql n ↔
      ∃ k, k + 1 < (segments (Lexeme.scan none sql.toList)).length ∧
        n = (";".intercalate (((segments (Lexeme.scan none sql.toList)).map segmentString).take
          (k + 1))).utf8ByteSize := by
  have hsize : ∀ {pre post : List Lexeme} {k : Nat},
      Lexeme.scan none sql.toList = pre ++ .separator :: post → (segments pre).length = k + 1 →
      (";".intercalate (((segments (Lexeme.scan none sql.toList)).map segmentString).take
        (k + 1))).utf8ByteSize = (utf8 (segmentText pre)).length := by
    intro pre post k hscan hlength
    rw [← List.map_take, ← hlength, take_segments hscan, intercalate_segments, length_utf8]
    rfl
  rw [cutAt_iff]
  constructor
  · intro hgiven
    obtain ⟨pre, post, hscan, rfl⟩ := hgiven
    obtain ⟨k, hk⟩ : ∃ k, (segments pre).length = k + 1 :=
      Nat.exists_eq_add_one.mpr (List.length_pos_iff.mpr (segments_ne_nil pre))
    refine ⟨k, ?_, (hsize hscan hk).symm⟩
    have hpost := List.length_pos_iff.mpr (segments_ne_nil post)
    rw [hscan, segments_append_separator, List.length_append]
    omega
  · intro hgiven
    obtain ⟨k, hk, rfl⟩ := hgiven
    obtain ⟨pre, post, hscan, hlength⟩ := exists_separator hk
    exact ⟨pre, post, hscan, hsize hscan hlength⟩

/-! ## Statements -/

theorem ofSegment?_false (segment : List Lexeme) :
    ofSegment? false segment =
      if allBlank (segmentString segment) then none else some ⟨trim (segmentString segment), []⟩ := by
  have hblank : allBlank (segmentString segment) = (trimBlanks (segmentText segment)).isEmpty := by
    rw [Bool.eq_iff_iff, List.isEmpty_iff, trimBlanks_eq_nil, allBlank, toList_segmentString,
      List.all_eq_true]
  rw [hblank, trim, toList_segmentString]
  rfl

theorem split_false (sql : String) :
    split false sql =
      (((segments (Lexeme.scan none sql.toList)).map segmentString).filter
        fun text => !allBlank text).map fun text => ⟨trim text, []⟩ := by
  unfold split
  induction segments (Lexeme.scan none sql.toList) with
  | nil => rfl
  | cons first others ih =>
    rw [List.filterMap_cons, ofSegment?_false, List.map_cons, List.filter_cons]
    cases allBlank (segmentString first) with
    | true => exact ih
    | false => exact congrArg _ ih

theorem contiguous_of_split {sql : String} {s : Statement} (h : s ∈ split false sql) :
    ∃ front back, sql = front ++ s.sql ++ back := by
  rw [split_false] at h
  obtain ⟨text, htext, rfl⟩ := List.mem_map.mp h
  obtain ⟨segment, hsegment, rfl⟩ := List.mem_map.mp (List.mem_filter.mp htext).1
  obtain ⟨before, after, hsegments⟩ := List.append_of_mem hsegment
  obtain ⟨-, more, hscan, -⟩ := segments_eq_append hsegments
  have htrim := (leading_trimEnds_trailing isBlank (segmentText segment)).symm
  refine ⟨String.ofList (segmentText (closed before) ++ leading isBlank (segmentText segment)),
    String.ofList (trailing isBlank (segmentText segment) ++ segmentText more), ?_⟩
  have htext := segmentText_scan none sql.toList
  rw [hscan, segmentText_append, segmentText_append, htrim] at htext
  rw [← String.toList_inj, String.toList_append, String.toList_append, String.toList_ofList,
    String.toList_ofList, toList_trim, toList_segmentString, ← htext, trimBlanks_eq]
  simp only [List.append_assoc]

theorem finish_run_false (sql : String) :
    ((Scanner.start sql.toUTF8.data.toList).run false).finish =
      ((segments (Lexeme.scan none sql.toList)).map segmentString).map
        fun text => ⟨text.toUTF8.data.toList, []⟩ := by
  have hchunk : ∀ segment, chunkOf false segment =
      ⟨(segmentString segment).toUTF8.data.toList, []⟩ := by
    intro segment
    rw [Scanner.toUTF8_eq, toList_segmentString]
    rfl
  rw [Scanner.finish_run, List.map_map]
  exact List.map_congr_left fun segment _ => hchunk segment

/-- A text is its segments with semicolons between them, which are those that the scanner meets in
the normal mode.  It has written nothing but the bytes of the segments at the end.  The statements
are the segments that are not blank, without the blanks around them, and each of them is one
statement again when it is split. -/
theorem split_lossless (sql : String) :
    ∃ texts : List String,
      sql = ";".intercalate texts ∧
      (∀ n, CutAt false sql n ↔
        ∃ k, k + 1 < texts.length ∧
          n = (";".intercalate (texts.take (k + 1))).utf8ByteSize) ∧
      ((Scanner.start sql.toUTF8.data.toList).run false).finish =
        texts.map (fun text => ⟨text.toUTF8.data.toList, []⟩) ∧
      Scanner.parse false sql = split false sql ∧
      split false sql =
        (texts.filter fun text => !allBlank text).map (fun text => ⟨trim text, []⟩) ∧
      ∀ s ∈ split false sql, (∃ front back, sql = front ++ s.sql ++ back) ∧
        split false s.sql = [s] := by
  refine ⟨(segments (Lexeme.scan none sql.toList)).map segmentString, ?_, ?_,
    finish_run_false sql, Scanner.parse_eq_split false sql, split_false sql, ?_⟩
  · rw [intercalate_segments, ← String.toList_inj, toList_segmentString, segmentText_scan]
  · intro n
    rw [cutAt_iff_segments, List.length_map]
  · exact fun s hs => ⟨contiguous_of_split hs, split_sql_of_split hs⟩

/-! ## Text that is kept as it is -/

namespace Scanner

/-- Wherever the scanner is in the normal mode, it keeps an opaque text as it is and comes out behind
it.  If what is opened is never closed, all that is left is the end of the last segment. -/
theorem opaque_is_kept (numbered : Bool) (sql : String) {s : Scanner}
    (hs : Reaches numbered (start sql.toUTF8.data.toList) s) (hmode : s.mode = .normal) :
    split numbered sql = (s.run numbered).finish.filterMap Chunk.statement? ∧
    (∀ text post, s.rest = text ++ post → Opaque text post →
      ∃ more, Run numbered s (s :: more)
          ⟨s.passed ++ text, post, .normal, s.chunks, s.current ++ text, s.names⟩ ∧
        ∀ u ∈ more, u.mode ≠ .normal) ∧
    (Opens s.rest → (∀ text post, s.rest = text ++ post → ¬ Opaque text post) →
      (∃ more mode, Run numbered s (s :: more)
          ⟨s.passed ++ s.rest, [], mode, s.chunks, s.current ++ s.rest, s.names⟩ ∧
        ∀ u ∈ more, u.mode ≠ .normal) ∧
      split numbered sql =
        (s.chunks ++ [Chunk.mk (s.current ++ s.rest) s.names]).filterMap Chunk.statement?) := by
  obtain ⟨visited, hvisited⟩ := hs
  have hsplit : split numbered sql = (s.run numbered).finish.filterMap Chunk.statement? := by
    rw [← parse_eq_split, parse, hvisited.run_eq]
  refine ⟨hsplit, ?_, ?_⟩
  · intro text post hrest hopaque
    exact run_opaque hopaque hmode hrest
  · intro hopens hnever
    obtain ⟨more, mode, hrun, hmore⟩ := run_unclosed hopens hmode hnever
    refine ⟨⟨more, mode, hrun, hmore⟩, ?_⟩
    rw [hsplit, hrun.run_eq, run_of_end rfl]
    rfl

theorem opaque_is_kept_quotes :
    (∃ more, Run true (start "'a;'b".toUTF8.data.toList) (start "'a;'b".toUTF8.data.toList :: more)
        ⟨utf8 "'a;'".toList, utf8 ['b'], .normal, [], utf8 "'a;'".toList, []⟩ ∧
      ∀ u ∈ more, u.mode ≠ .normal) ∧
    split true "'a;" = [⟨"'a;", []⟩] := by
  constructor
  · have hbody : QuotedBody '\''.toUInt8 (utf8 "a;".toList) :=
      .other (by decide) (.other (by decide) .nil)
    exact (opaque_is_kept true "'a;'b" ⟨[], .refl _⟩ rfl).2.1 (utf8 "'a;'".toList) (utf8 ['b'])
      (by decide) (.quoted (.inl rfl) hbody (by decide))
  · have hbytes : "'a;".toUTF8.data.toList = utf8 "'a;".toList := by decide
    have hopens : Opens (utf8 "'a;".toList) := .quoted (.inl rfl)
    have hnever : ∀ text post, utf8 "'a;".toList = text ++ post → ¬ Opaque text post := by
      intro text post htext hopaque
      cases hopaque with
      | @quoted mark body _ hmark hbody hpost =>
        rw [List.cons_append, List.append_assoc] at htext
        obtain ⟨rfl, hrest⟩ := List.cons.inj htext
        have hmem : '\''.toUInt8 ∈ body ++ ('\''.toUInt8 :: post) :=
          List.mem_append_right _ List.mem_cons_self
        exact absurd (hrest ▸ hmem) (by decide)
      | lineComment _ => exact absurd (List.cons.inj htext).1 (by decide)
      | blockComment _ => exact absurd (List.cons.inj htext).1 (by decide)
      | dollarQuoted _ _ => exact absurd (List.cons.inj htext).1 (by decide)
    rw [((opaque_is_kept true "'a;" ⟨[], .refl _⟩ rfl).2.2 (hbytes ▸ hopens) (hbytes ▸ hnever)).2]
    decide

end Scanner
end Statement
end SqlSession
