import SqlSession.Proofs.Statement.Lossless

/-!
# Texts joined by a semicolon

A semicolon behind a text is like the end of the text for everything that the scanner looks ahead for
(`Scanner.step?_before`), and a semicolon before a text is like its start for what the scanner looks
back for (`Scanner.step?_behind`).  So the statements of two texts that are joined by a semicolon are
those of the one and those of the other, if the scan of the first text ends in the normal mode
(`split_joined`).
-/

namespace SqlSession
namespace Statement

open Text

/-- The scan of the text ends in the normal mode. -/
def EndsNormal (numbered : Bool) (sql : String) : Prop :=
  ((Scanner.start sql.toUTF8.data.toList).run numbered).mode = .normal

/-! ## Looking ahead to a semicolon -/

variable {rest post : List UInt8}

theorem head?_before {b : UInt8} (hb : b ≠ ';'.toUInt8) :
    (rest ++ ';'.toUInt8 :: post).head? = some b ↔ rest.head? = some b := by
  cases rest with
  | nil => exact ⟨fun h => absurd (Option.some.inj h).symm hb, nofun⟩
  | cons c rest => exact Iff.rfl

theorem any_head?_before {p : UInt8 → Bool} (hp : p ';'.toUInt8 = false) :
    (rest ++ ';'.toUInt8 :: post).head?.any p = rest.head?.any p := by
  cases rest with
  | nil => exact hp
  | cons c rest => rfl

theorem tail_before {b : UInt8} (h : rest.head? = some b) :
    (rest ++ ';'.toUInt8 :: post).tail = rest.tail ++ ';'.toUInt8 :: post := by
  obtain ⟨rest, rfl⟩ := List.head?_eq_some_iff.mp h
  rfl

theorem tag?_before :
    tag? (rest ++ ';'.toUInt8 :: post) =
      (tag? rest).map fun found => (found.1, found.2 ++ ';'.toUInt8 :: post) := by
  have hname : isNameByte ';'.toUInt8 = false := by decide
  obtain ⟨htake, hdrop⟩ := takeWhile_append_cons hname rest post
  unfold tag?
  rw [any_head?_before (by decide), htake, hdrop]
  cases rest.head?.any isDigitByte with
  | true => rfl
  | false =>
    cases rest.dropWhile isNameByte with
    | nil => rfl
    | cons b body =>
      by_cases hb : b = '$'.toUInt8
      · subst hb
        rfl
      · simp only [List.cons_append, if_neg hb]
        rfl

/-- A text does not reach over something that is not in it. -/
theorem prefix_before {α : Type} {text rest post : List α} {x : α} (h : x ∉ text) :
    text <+: rest ++ x :: post ↔ text <+: rest := by
  refine ⟨fun hprefix => ?_, fun hprefix => hprefix.trans (List.prefix_append _ _)⟩
  rcases Nat.lt_or_ge rest.length text.length with hlt | hle
  · -- It would be in the text.
    have hreach : rest ++ [x] <+: text := by
      refine List.prefix_of_prefix_length_le ?_ hprefix ?_
      · exact ⟨post, by rw [List.append_assoc]; rfl⟩
      · rw [List.length_append]
        exact hlt
    exact absurd (hreach.subset (List.mem_append_right _ List.mem_cons_self)) h
  · exact List.prefix_of_prefix_length_le hprefix (List.prefix_append _ _) hle

theorem semicolon_not_mem_tag {tag body : List UInt8} (h : tag? rest = some (tag, body)) :
    ';'.toUInt8 ∉ tag := by
  have hname : isNameByte ';'.toUInt8 = false := by decide
  unfold tag? at h
  split at h
  · cases h
  · split at h
    · cases h
    · split at h
      · cases h
        intro hmem
        rw [List.mem_takeWhile_imp hmem] at hname
        cases hname
      · cases h

theorem semicolon_not_mem_dollarMark {tag : List UInt8} (h : ';'.toUInt8 ∉ tag) :
    ';'.toUInt8 ∉ dollarMark tag := by
  intro hmem
  rcases List.mem_cons.mp hmem with heq | hmem
  · exact absurd heq (by decide)
  · rcases List.mem_append.mp hmem with hmem | hmem
    · exact h hmem
    · exact absurd (List.mem_singleton.mp hmem) (by decide)

/-- There is no semicolon in the mark that ends the mode. -/
def Mode.Endable : Mode → Prop
  | .quoted mark => mark ≠ ';'.toUInt8
  | .dollarQuoted tag => ';'.toUInt8 ∉ tag
  | _ => True

namespace Scanner

variable {numbered : Bool} {s t u : Scanner}

/-! ## Before a semicolon -/

/-- The scanner with a semicolon and other text behind what is left. -/
def before (s : Scanner) (post : List UInt8) : Scanner :=
  ⟨s.passed, s.rest ++ ';'.toUInt8 :: post, s.mode, s.chunks, s.current, s.names⟩

theorem stepNormal_before (s : Scanner) (b : UInt8) (rest post : List UInt8) :
    s.stepNormal numbered b (rest ++ ';'.toUInt8 :: post) =
      (s.stepNormal numbered b rest).before post := by
  have hdash : (rest ++ ';'.toUInt8 :: post).head? = some '-'.toUInt8 ↔
      rest.head? = some '-'.toUInt8 := head?_before (by decide)
  have hstar : (rest ++ ';'.toUInt8 :: post).head? = some '*'.toUInt8 ↔
      rest.head? = some '*'.toUInt8 := head?_before (by decide)
  have hopens : opensPlaceholder s.passed b (rest ++ ';'.toUInt8 :: post) =
      opensPlaceholder s.passed b rest := by
    unfold opensPlaceholder
    rw [any_head?_before (by decide)]
  have hname : isNameByte ';'.toUInt8 = false := by decide
  obtain ⟨htake, hdrop⟩ := takeWhile_append_cons hname rest post
  simp only [stepNormal, hdash, hstar, hopens, htake, hdrop, tag?_before]
  by_cases hquote : b = '\''.toUInt8 ∨ b = '"'.toUInt8
  · simp only [if_pos hquote]
    rfl
  by_cases hline : b = '-'.toUInt8 ∧ rest.head? = some '-'.toUInt8
  · simp only [if_neg hquote, if_pos hline]
    rfl
  by_cases hblock : b = '/'.toUInt8 ∧ rest.head? = some '*'.toUInt8
  · simp only [if_neg hquote, if_neg hline, if_pos hblock, tail_before hblock.2]
    rfl
  by_cases hdollar : b = '$'.toUInt8
  · simp only [if_neg hquote, if_neg hline, if_neg hblock, if_pos hdollar]
    cases tag? rest <;> rfl
  by_cases hcut : b = ';'.toUInt8
  · simp only [if_neg hquote, if_neg hline, if_neg hblock, if_neg hdollar, if_pos hcut]
    rfl
  simp only [if_neg hquote, if_neg hline, if_neg hblock, if_neg hdollar, if_neg hcut]
  cases numbered && opensPlaceholder s.passed b rest <;> rfl

theorem stepQuoted_before {mark : UInt8} (hmark : mark ≠ ';'.toUInt8) (s : Scanner) (b : UInt8)
    (rest post : List UInt8) :
    s.stepQuoted mark b (rest ++ ';'.toUInt8 :: post) = (s.stepQuoted mark b rest).before post := by
  simp only [stepQuoted, head?_before hmark]
  by_cases hb : b = mark
  · by_cases hnext : rest.head? = some mark
    · simp only [if_pos hb, if_pos hnext, tail_before hnext]
      rfl
    · simp only [if_pos hb, if_neg hnext]
      rfl
  · simp only [if_neg hb]
    rfl

theorem stepBlockComment_before (s : Scanner) (depth : Nat) (b : UInt8) (rest post : List UInt8) :
    s.stepBlockComment depth b (rest ++ ';'.toUInt8 :: post) =
      (s.stepBlockComment depth b rest).before post := by
  have hstar : (rest ++ ';'.toUInt8 :: post).head? = some '*'.toUInt8 ↔
      rest.head? = some '*'.toUInt8 := head?_before (by decide)
  have hslash : (rest ++ ';'.toUInt8 :: post).head? = some '/'.toUInt8 ↔
      rest.head? = some '/'.toUInt8 := head?_before (by decide)
  simp only [stepBlockComment, hstar, hslash]
  by_cases hopens : b = '/'.toUInt8 ∧ rest.head? = some '*'.toUInt8
  · simp only [if_pos hopens, tail_before hopens.2]
    rfl
  by_cases hcloses : b = '*'.toUInt8 ∧ rest.head? = some '/'.toUInt8
  · simp only [if_neg hopens, if_pos hcloses, tail_before hcloses.2]
    rfl
  simp only [if_neg hopens, if_neg hcloses]
  rfl

theorem stepDollarQuoted_before {tag : List UInt8} (htag : ';'.toUInt8 ∉ tag)
    (s : Scanner) (b : UInt8) (rest post : List UInt8) :
    s.stepDollarQuoted tag b (rest ++ ';'.toUInt8 :: post) =
      (s.stepDollarQuoted tag b rest).before post := by
  have hprefix : (dollarMark tag).isPrefixOf (b :: (rest ++ ';'.toUInt8 :: post)) = true ↔
      (dollarMark tag).isPrefixOf (b :: rest) = true := by
    rw [List.isPrefixOf_iff_prefix, List.isPrefixOf_iff_prefix, ← List.cons_append]
    exact prefix_before (semicolon_not_mem_dollarMark htag)
  simp only [stepDollarQuoted, hprefix]
  by_cases hcloses : (dollarMark tag).isPrefixOf (b :: rest) = true
  · have hlength := (List.isPrefixOf_iff_prefix.mp hcloses).length_le
    rw [if_pos hcloses, if_pos hcloses, ← List.cons_append,
      List.drop_append_of_le_length hlength]
    rfl
  · rw [if_neg hcloses, if_neg hcloses]
    rfl

theorem endable_stepNormal (b : UInt8) (rest : List UInt8) :
    (s.stepNormal numbered b rest).mode.Endable := by
  unfold stepNormal
  split
  · next hquote =>
    rcases hquote with rfl | rfl
    · exact (by decide : '\''.toUInt8 ≠ ';'.toUInt8)
    · exact (by decide : '"'.toUInt8 ≠ ';'.toUInt8)
  · split
    · trivial
    · split
      · trivial
      · split
        · split
          · next htag => exact semicolon_not_mem_tag htag
          · trivial
        · split
          · trivial
          · split <;> trivial

theorem endable_of_step? (h : s.step? numbered = some t) (hmode : s.mode.Endable) :
    t.mode.Endable := by
  unfold step? at h
  split at h
  · cases h
  · next b rest hrest =>
    cases hs : s.mode with
    | normal =>
      rw [hs] at h
      cases h
      exact endable_stepNormal b rest
    | quoted mark =>
      rw [hs] at h hmode
      cases h
      unfold stepQuoted
      split
      · split
        · exact hmode
        · trivial
      · exact hmode
    | lineComment =>
      rw [hs] at h
      cases h
      unfold stepLineComment
      split <;> trivial
    | blockComment depth =>
      rw [hs] at h
      cases h
      unfold stepBlockComment
      split
      · trivial
      · split
        · split <;> trivial
        · trivial
    | dollarQuoted tag =>
      rw [hs] at h hmode
      cases h
      unfold stepDollarQuoted
      split
      · trivial
      · exact hmode

/-- A step is the same if a semicolon stands behind the text. -/
theorem step?_before (hmode : s.mode.Endable) (h : s.step? numbered = some t) (post : List UInt8) :
    (s.before post).step? numbered = some (t.before post) := by
  cases hrest : s.rest with
  | nil =>
    rw [step?_eq_none.mpr hrest] at h
    cases h
  | cons b rest =>
    have hbefore : (s.before post).rest = b :: (rest ++ ';'.toUInt8 :: post) := by
      show s.rest ++ _ = _
      rw [hrest]
      rfl
    rw [step?_eq hrest] at h
    have hsame : (s.before post).mode = s.mode := rfl
    rw [step?_eq hbefore, ← Option.some.inj h, hsame]
    refine congrArg some ?_
    cases hs : s.mode with
    | normal => exact stepNormal_before s b rest post
    | quoted mark =>
      rw [hs] at hmode
      exact stepQuoted_before hmode s b rest post
    | lineComment => rfl
    | blockComment depth => exact stepBlockComment_before s depth b rest post
    | dollarQuoted tag =>
      rw [hs] at hmode
      exact stepDollarQuoted_before hmode s b rest post

theorem Reaches.before (h : Reaches numbered s t) (hmode : s.mode.Endable) (post : List UInt8) :
    Reaches numbered (s.before post) (t.before post) := by
  obtain ⟨visited, hrun⟩ := h
  induction hrun with
  | refl s => exact ⟨[], .refl _⟩
  | step hfirst _ ih =>
    obtain ⟨visited', hrun'⟩ := ih (endable_of_step? hfirst hmode)
    exact ⟨_, .step (step?_before hmode hfirst post) hrun'⟩

/-! ## Behind a semicolon -/

/-- The scanner in a text that stands behind these bytes, of which these chunks have been cut off. -/
def behind (passed : List UInt8) (chunks : List Chunk) (s : Scanner) : Scanner :=
  ⟨passed ++ s.passed, s.rest, s.mode, chunks ++ s.chunks, s.current, s.names⟩

section Behind

variable {passed : List UInt8} (hpassed : passed.getLast? = some ';'.toUInt8) (chunks : List Chunk)
include hpassed

theorem opensPlaceholder_behind (text : List UInt8) (b : UInt8) (rest : List UInt8) :
    opensPlaceholder (passed ++ text) b rest = opensPlaceholder text b rest := by
  unfold opensPlaceholder
  cases htext : text.getLast? with
  | none =>
    rw [List.getLast?_append, htext, Option.none_or, hpassed]
    rfl
  | some p => rw [List.getLast?_append, htext, Option.some_or]

theorem stepNormal_behind (s : Scanner) (b : UInt8) (rest : List UInt8) :
    (s.behind passed chunks).stepNormal numbered b rest =
      (s.stepNormal numbered b rest).behind passed chunks := by
  have hkeep : ∀ text rest mode, (s.behind passed chunks).keep text rest mode =
      (s.keep text rest mode).behind passed chunks := by
    intro text rest mode
    simp only [keep, behind, List.append_assoc]
  have hcut : (s.behind passed chunks).cut rest = (s.cut rest).behind passed chunks := by
    simp only [cut, behind, List.append_assoc]
  have hnumber : ∀ name rest, (s.behind passed chunks).number b name rest =
      (s.number b name rest).behind passed chunks := by
    intro name rest
    simp only [number, named, behind, List.append_assoc]
    rfl
  have hopens : opensPlaceholder (s.behind passed chunks).passed b rest =
      opensPlaceholder s.passed b rest := opensPlaceholder_behind hpassed s.passed b rest
  simp only [stepNormal, hkeep, hcut, hnumber, hopens]
  repeat' split
  all_goals rfl

theorem step?_behind (s : Scanner) :
    (s.behind passed chunks).step? numbered = (s.step? numbered).map (behind passed chunks) := by
  have hkeep : ∀ text rest mode, (s.behind passed chunks).keep text rest mode =
      (s.keep text rest mode).behind passed chunks := by
    intro text rest mode
    simp only [keep, behind, List.append_assoc]
  cases hrest : s.rest with
  | nil =>
    have hend : (s.behind passed chunks).rest = [] := hrest
    rw [step?_eq_none.mpr hrest, step?_eq_none.mpr hend]
    rfl
  | cons b rest =>
    have hbehind : (s.behind passed chunks).rest = b :: rest := hrest
    have hmode : (s.behind passed chunks).mode = s.mode := rfl
    rw [step?_eq hrest, step?_eq hbehind, hmode, Option.map_some]
    refine congrArg some ?_
    cases s.mode with
    | normal => exact stepNormal_behind hpassed chunks s b rest
    | quoted mark =>
      simp only [stepQuoted, hkeep, apply_ite (behind passed chunks)]
    | lineComment => exact hkeep _ _ _
    | blockComment depth =>
      simp only [stepBlockComment, hkeep, apply_ite (behind passed chunks)]
    | dollarQuoted tag =>
      simp only [stepDollarQuoted, hkeep, apply_ite (behind passed chunks)]

theorem Run.behind {visited : List Scanner} (h : Run numbered s visited t) :
    Run numbered (s.behind passed chunks) (visited.map (Scanner.behind passed chunks))
      (t.behind passed chunks) := by
  induction h with
  | refl s => exact .refl _
  | step hfirst _ ih =>
    refine .step ?_ ih
    rw [step?_behind hpassed, hfirst]
    rfl

end Behind

/-! ## Whole runs -/

theorem reaches_run (numbered : Bool) (s : Scanner) :
    Reaches numbered s (s.run numbered) ∧ (s.run numbered).rest = [] := by
  fun_induction run numbered s with
  | case1 s hnone => exact ⟨⟨[], .refl s⟩, step?_eq_none.mp hnone⟩
  | case2 s t hsome ih =>
    obtain ⟨⟨visited, hrun⟩, hend⟩ := ih
    exact ⟨⟨s :: visited, .step hsome hrun⟩, hend⟩

theorem Run.length_le {visited : List Scanner} (h : Run numbered s visited t) :
    t.rest.length ≤ s.rest.length := by
  induction h with
  | refl s => exact Nat.le_refl _
  | step hfirst _ ih => exact Nat.le_trans ih (Nat.le_of_lt (moved_of_step? hfirst).length_lt)

/-- The scanner is at each place once. -/
theorem Reaches.unique (h : Reaches numbered s t) (h' : Reaches numbered s u)
    (hpassed : t.passed.length = u.passed.length) : t = u := by
  obtain ⟨visited, hrun⟩ := h
  obtain ⟨visited', hrun'⟩ := h'
  have hlength : t.rest.length = u.rest.length := by
    have hbytes := congrArg List.length (hrun.bytes.trans hrun'.bytes.symm)
    rw [List.length_append, List.length_append] at hbytes
    omega
  clear hpassed
  induction hrun generalizing visited' with
  | refl s =>
    cases hrun' with
    | refl => rfl
    | step hfirst hothers =>
      have hlt := (moved_of_step? hfirst).length_lt
      have hle := hothers.length_le
      omega
  | step hfirst hothers ih =>
    cases hrun' with
    | refl =>
      have hlt := (moved_of_step? hfirst).length_lt
      have hle := hothers.length_le
      omega
    | step hfirst' hothers' =>
      rw [hfirst] at hfirst'
      cases hfirst'
      exact ih _ hothers' hlength

theorem finish_behind (passed : List UInt8) (chunks : List Chunk) (s : Scanner) :
    (s.behind passed chunks).finish = chunks ++ s.finish := List.append_assoc _ _ _

theorem passed_run (numbered : Bool) (bytes : List UInt8) :
    ((start bytes).run numbered).passed = bytes := by
  obtain ⟨⟨visited, hrun⟩, hend⟩ := reaches_run numbered (start bytes)
  have hbytes := hrun.bytes
  rw [hend, List.append_nil] at hbytes
  exact hbytes

/-- At the end of the first text the scanner stands before the semicolon. -/
theorem reaches_semicolon (numbered : Bool) (xs ys : List UInt8) :
    Reaches numbered (start (xs ++ ';'.toUInt8 :: ys)) (((start xs).run numbered).before ys) :=
  (reaches_run numbered (start xs)).1.before trivial ys

theorem stepNormal_semicolon (s : Scanner) (rest : List UInt8) :
    s.stepNormal numbered ';'.toUInt8 rest = s.cut rest := by
  have hline : ¬ (';'.toUInt8 = '-'.toUInt8 ∧ rest.head? = some '-'.toUInt8) :=
    fun h => absurd h.1 (by decide)
  have hblock : ¬ (';'.toUInt8 = '/'.toUInt8 ∧ rest.head? = some '*'.toUInt8) :=
    fun h => absurd h.1 (by decide)
  rw [stepNormal, if_neg (by decide), if_neg hline, if_neg hblock, if_neg (by decide), if_pos rfl]

theorem run_joined {xs : List UInt8} (h : ((start xs).run numbered).mode = .normal)
    (ys : List UInt8) :
    (start (xs ++ ';'.toUInt8 :: ys)).run numbered =
      ((start ys).run numbered).behind (xs ++ [';'.toUInt8]) ((start xs).run numbered).finish := by
  obtain ⟨visited, hfirst⟩ := reaches_semicolon numbered xs ys
  obtain ⟨⟨more, hmore⟩, hend⟩ := reaches_run numbered (start ys)
  have hrest : (((start xs).run numbered).before ys).rest = ';'.toUInt8 :: ys := by
    show ((start xs).run numbered).rest ++ _ = _
    rw [(reaches_run numbered (start xs)).2]
    rfl
  have hmode : (((start xs).run numbered).before ys).mode = .normal := h
  have hcut : (((start xs).run numbered).before ys).cut ys =
      (start ys).behind (xs ++ [';'.toUInt8]) ((start xs).run numbered).finish := by
    have hpassed := passed_run numbered xs
    simp only [cut, before, behind, start, finish, List.append_nil] at hpassed ⊢
    rw [hpassed]
  have hstep : (((start xs).run numbered).before ys).step? numbered =
      some ((start ys).behind (xs ++ [';'.toUInt8]) ((start xs).run numbered).finish) := by
    rw [step?_normal hmode hrest, stepNormal_semicolon, hcut]
  have hlast : (xs ++ [';'.toUInt8]).getLast? = some ';'.toUInt8 := List.getLast?_concat
  have hothers := hmore.behind hlast ((start xs).run numbered).finish
  rw [(hfirst.trans (.step hstep hothers)).run_eq]
  exact run_of_end hend

end Scanner

/-! ## Statements of joined texts -/

theorem bytes_joined (a b : String) :
    (a ++ ";" ++ b).toUTF8.data.toList =
      a.toUTF8.data.toList ++ ';'.toUInt8 :: b.toUTF8.data.toList := by
  rw [Scanner.toUTF8_eq, Scanner.toUTF8_eq, Scanner.toUTF8_eq, String.toList_append,
    String.toList_append, utf8_append, utf8_append, List.append_assoc]
  rfl

/-- The scan ends in the normal mode where a semicolon behind the text would cut. -/
theorem endsNormal_iff (numbered : Bool) (a : String) :
    EndsNormal numbered a ↔ CutAt numbered (a ++ ";" ++ "") a.toUTF8.data.toList.length := by
  have hreaches := Scanner.reaches_semicolon numbered a.toUTF8.data.toList
    "".toUTF8.data.toList
  have hpassed := Scanner.passed_run numbered a.toUTF8.data.toList
  rw [← bytes_joined] at hreaches
  constructor
  · intro h
    refine ⟨_, hreaches, h, ?_, congrArg List.length hpassed⟩
    show (((Scanner.start a.toUTF8.data.toList).run numbered).rest ++ _).head? = _
    rw [(Scanner.reaches_run numbered (.start a.toUTF8.data.toList)).2]
    rfl
  · intro hgiven
    obtain ⟨u, hu, hmode, -, hlength⟩ := hgiven
    have heq := hu.unique hreaches (hlength.trans (congrArg List.length hpassed).symm)
    rw [heq] at hmode
    exact hmode

/-- Numbering does not matter for how the scan of a text ends. -/
theorem endsNormal_congr {numbered other : Bool} {a : String} (h : EndsNormal numbered a) :
    EndsNormal other a := by
  rw [endsNormal_iff, cutAt_iff] at h ⊢
  exact h

theorem split_joined {flag : Bool} {a : String} (h : EndsNormal flag a) (numbered : Bool)
    (b : String) :
    split numbered (a ++ ";" ++ b) = split numbered a ++ split numbered b := by
  have hnormal : EndsNormal numbered a := endsNormal_congr h
  rw [← Scanner.parse_eq_split, ← Scanner.parse_eq_split, ← Scanner.parse_eq_split, Scanner.parse,
    bytes_joined, Scanner.run_joined hnormal, Scanner.finish_behind, List.filterMap_append]
  rfl

end Statement
end SqlSession
