import Mathlib.Data.List.TakeWhile
import SqlSession.Proofs.Statement.Segments
import SqlSession.Proofs.Text.Trim

/-!
# Reading a part of a text again

A text that is cut off somewhere is read like the whole up to the lexeme in which the cut is.  So a
text whose lexemes have no separator still has none when it is cut off
(`Lexeme.no_separator_of_cut`), and a statement that is read again gives itself
(`split_sql_of_split`).
-/

namespace SqlSession
namespace Statement

/-! ## Spans of a text that goes on -/

namespace Span

/-- The span goes to the end of the text, or it does not change if the text goes on. -/
def Stable (f : List Char → Span) (x y : List Char) : Prop :=
  (f x).rest = [] ∨ f (x ++ y) = ⟨(f x).taken, (f x).closed, (f x).rest ++ y⟩

end Span

theorem stable_quoted (mark : Char) (x y : List Char) : Span.Stable (quoted mark) x y := by
  unfold Span.Stable
  fun_induction quoted mark x with
  | case1 => exact .inl rfl
  | case2 c => exact .inl rfl
  | case3 rest ih =>
    rcases ih with hrest | hstable
    · exact .inl hrest
    · refine .inr ?_
      simp only [List.cons_append, quoted, if_true, hstable, Span.cons]
  | case4 d rest hd =>
    refine .inr ?_
    simp only [List.cons_append, quoted, if_true, if_neg hd]
  | case5 c d rest hc ih =>
    rcases ih with hrest | hstable
    · exact .inl hrest
    · refine .inr ?_
      rw [List.cons_append] at hstable
      simp only [List.cons_append, quoted, if_neg hc, hstable, Span.cons]

theorem stable_lineComment (x y : List Char) : Span.Stable lineComment x y := by
  unfold Span.Stable
  induction x with
  | nil => exact .inl rfl
  | cons c x ih =>
    by_cases hc : c = '\n'
    · refine .inr ?_
      simp only [List.cons_append, lineComment, if_pos hc]
    · rcases ih with hrest | hstable
      · refine .inl ?_
        simp only [lineComment, if_neg hc]
        exact hrest
      · refine .inr ?_
        simp only [List.cons_append, lineComment, if_neg hc, hstable, Span.cons]

theorem blockComment_cons {outer : Nat} {c : Char} {rest : List Char}
    (hopens : ∀ tail, c = '/' → rest = '*' :: tail → False)
    (hcloses : ∀ tail, c = '*' → rest = '/' :: tail → False) :
    blockComment outer (c :: rest) = (blockComment outer rest).cons c := by
  rw [blockComment]
  · exact hopens
  · exact hcloses

theorem stable_blockComment (outer : Nat) (x y : List Char) :
    Span.Stable (blockComment outer) x y := by
  unfold Span.Stable
  fun_induction blockComment outer x with
  | case1 => exact .inl rfl
  | case2 outer rest ih =>
    rcases ih with hrest | hstable
    · exact .inl hrest
    · refine .inr ?_
      simp only [List.cons_append, blockComment, hstable, Span.cons]
  | case3 rest => exact .inr rfl
  | case4 rest outer ih =>
    rcases ih with hrest | hstable
    · exact .inl hrest
    · refine .inr ?_
      simp only [List.cons_append, blockComment, hstable, Span.cons]
  | case5 outer c rest hopens hcloses ih =>
    rcases ih with hrest | hstable
    · exact .inl hrest
    · cases rest with
      | nil => exact .inl rfl
      | cons d rest =>
        refine .inr ?_
        rw [List.cons_append, blockComment_cons ?_ ?_, hstable]
        · rfl
        · exact fun tail hc htail => hopens rest hc (congrArg (· :: rest) (List.cons.inj htail).1)
        · exact fun tail hc htail => hcloses rest hc (congrArg (· :: rest) (List.cons.inj htail).1)

theorem length_le_of_dollarBody {closer x : List Char} (h : (dollarBody closer x).rest ≠ []) :
    closer.length ≤ x.length := by
  induction x with
  | nil => exact absurd rfl h
  | cons c x ih =>
    by_cases hprefix : closer.isPrefixOf (c :: x) = true
    · exact (List.isPrefixOf_iff_prefix.mp hprefix).length_le
    · rw [dollarBody, if_neg hprefix] at h
      exact Nat.le_succ_of_le (ih h)

theorem stable_dollarBody (closer : List Char) (x y : List Char) :
    Span.Stable (dollarBody closer) x y := by
  unfold Span.Stable
  induction x with
  | nil => exact .inl rfl
  | cons c x ih =>
    have hall : c :: x <+: c :: (x ++ y) := List.prefix_append (c :: x) y
    by_cases hprefix : closer.isPrefixOf (c :: x) = true
    · have hcloser := List.isPrefixOf_iff_prefix.mp hprefix
      have hlonger : closer.isPrefixOf (c :: (x ++ y)) = true :=
        List.isPrefixOf_iff_prefix.mpr (hcloser.trans hall)
      refine .inr ?_
      rw [List.cons_append, dollarBody, dollarBody, if_pos hprefix, if_pos hlonger,
        ← List.cons_append, List.drop_append_of_le_length hcloser.length_le]
    · rw [List.cons_append, dollarBody, dollarBody, if_neg hprefix]
      by_cases hrest : (dollarBody closer x).rest = []
      · exact .inl hrest
      · have hlonger : ¬ closer.isPrefixOf (c :: (x ++ y)) = true := by
          intro hlonger
          apply hprefix
          have hcloser := List.isPrefixOf_iff_prefix.mp hlonger
          have hlength : closer.length ≤ (c :: x).length :=
            Nat.le_succ_of_le (length_le_of_dollarBody hrest)
          exact List.isPrefixOf_iff_prefix.mpr (List.prefix_of_prefix_length_le hcloser hall hlength)
        rw [if_neg hlonger, ih.resolve_left hrest]
        exact .inr rfl

/-! ## Lexemes of a text that goes on -/

namespace Lexeme

/-- The lexeme is the same if the text goes on. -/
def Stable (before : Option Char) (c : Char) (x y : List Char) : Prop :=
  next before c (x ++ y) = ((next before c x).1, (next before c x).2 ++ y)

/-- The lexeme is no separator, and what is left behind it can be part of a name. -/
def Tail (found : Lexeme × List Char) : Prop :=
  found.1 ≠ .separator ∧ ∀ d ∈ found.2, isNameChar d = true

theorem tail_or_eq_ofSpan {f : List Char → Span} {x y : List Char} (h : Span.Stable f x y)
    (opening : List Char) :
    Tail (ofSpan opening (f x)) ∨
      ofSpan opening (f (x ++ y)) =
        ((ofSpan opening (f x)).1, (ofSpan opening (f x)).2 ++ y) := by
  rcases h with hrest | hstable
  · refine .inl ⟨by simp [ofSpan], ?_⟩
    rw [ofSpan, hrest]
    exact List.forall_mem_nil _
  · refine .inr ?_
    rw [hstable]
    rfl

/-- Names go on only if they are not followed by anything else. -/
theorem takeWhile_append_of_any {p : Char → Bool} {x : List Char} (h : x.any (fun d => !p d) = true)
    (y : List Char) :
    (x ++ y).takeWhile p = x.takeWhile p ∧ (x ++ y).dropWhile p = x.dropWhile p ++ y := by
  obtain ⟨d, hmem, hd⟩ := List.any_eq_true.mp h
  obtain ⟨xs, ys, rfl⟩ := List.append_of_mem hmem
  have hstop : p d = false := by simpa using hd
  obtain ⟨htake, hdrop⟩ := Text.takeWhile_append_cons hstop xs ys
  obtain ⟨htake', hdrop'⟩ := Text.takeWhile_append_cons hstop xs (ys ++ y)
  rw [List.append_assoc, List.cons_append, htake, hdrop, htake', hdrop']
  refine ⟨rfl, ?_⟩
  rw [List.append_assoc, List.cons_append]

/-- Characters that start nothing are lexemes of their own. -/
theorem scan_of_not_special {ds : List Char} (hds : ∀ d ∈ ds, d ∉ specialChars)
    (before : Option Char) (cs : List Char) :
    scan before (ds ++ cs) = ds.map plain ++ scan (ds.getLast?.or before) cs := by
  induction ds generalizing before with
  | nil => rfl
  | cons d ds ih =>
    rw [List.cons_append, scan_cons, next_of_not_special (hds d List.mem_cons_self)]
    show plain d :: scan (some d) (ds ++ cs) = _
    rw [ih fun e he => hds e (List.mem_cons_of_mem d he), List.getLast?_cons]
    cases ds.getLast? <;> rfl

theorem scan_names {ds : List Char} (hds : ∀ d ∈ ds, isNameChar d = true) (before : Option Char)
    (cs : List Char) : scan before (ds ++ cs) = ds.map plain ++ scan (ds.getLast?.or before) cs :=
  scan_of_not_special (fun d hd => not_mem_specialChars (by decide) (hds d hd)) before cs

/-- Either a list has something else than names in it or it has nothing else. -/
theorem any_or_all (x : List Char) :
    x.any (fun d => !isNameChar d) = true ∨ ∀ d ∈ x, isNameChar d = true := by
  by_cases hall : ∀ d ∈ x, isNameChar d = true
  · exact .inr hall
  · refine .inl ?_
    rw [List.any_eq_true]
    obtain ⟨d, hnot⟩ := Classical.not_forall.mp hall
    obtain ⟨hd, hname⟩ := Classical.not_imp.mp hnot
    rw [Bool.not_eq_true] at hname
    exact ⟨d, hd, by rw [hname]; rfl⟩

theorem head?_append_of_any {p : Char → Bool} {x : List Char} (h : x.any p = true) (y : List Char) :
    (x ++ y).head? = x.head? := by
  cases x with
  | nil => cases h
  | cons c x => rfl

theorem dollarTag?_append {x : List Char} (h : x.any (fun d => !isNameChar d) = true) (y : List Char) :
    dollarTag? (x ++ y) = (dollarTag? x).map fun found => (found.1, found.2 ++ y) := by
  obtain ⟨htake, hdrop⟩ := takeWhile_append_of_any h y
  unfold dollarTag?
  rw [head?_append_of_any h, htake, hdrop]
  cases x.head?.any Char.isDigit with
  | true => rfl
  | false =>
    cases hrest : x.dropWhile isNameChar with
    | nil =>
      have hall : ∀ d ∈ x, isNameChar d = true := List.dropWhile_eq_nil_iff.mp hrest
      obtain ⟨d, hd, hname⟩ := List.any_eq_true.mp h
      rw [hall d hd] at hname
      cases hname
    | cons c rest =>
      by_cases hc : c = '$'
      · subst hc
        rfl
      · simp [hc]

theorem tail_or_stable_dollar (before : Option Char) (x y : List Char) :
    Tail (next before '$' x) ∨ Stable before '$' x y := by
  unfold Stable
  simp only [next]
  rcases any_or_all x with hany | hall
  · rw [dollarTag?_append hany]
    cases dollarTag? x with
    | none => exact .inr rfl
    | some found =>
      exact tail_or_eq_ofSpan (stable_dollarBody ('$' :: (found.1 ++ ['$'])) found.2 y) _
  · have hnone : dollarTag? x = none := by
      unfold dollarTag?
      rw [List.dropWhile_eq_nil_iff.mpr hall]
      cases x.head?.any Char.isDigit <;> rfl
    rw [hnone]
    exact .inl ⟨Lexeme.noConfusion, hall⟩

theorem tail_or_stable_sigil {before : Option Char} {c : Char} (hc : c = '@' ∨ c = ':')
    (x y : List Char) : Tail (next before c x) ∨ Stable before c x y := by
  unfold Stable
  rw [next_sigil hc, next_sigil hc]
  cases x with
  | nil =>
    refine .inl ?_
    rw [List.head?_nil, Option.any_none, Bool.and_false]
    exact ⟨nofun, nofun⟩
  | cons d x =>
    have hhead : (d :: x ++ y).head? = (d :: x).head? := rfl
    rw [hhead]
    cases !attaches before && (d :: x).head?.any isNameStart with
    | false => exact .inr rfl
    | true =>
      rcases any_or_all (d :: x) with hany | hall
      · obtain ⟨htake, hdrop⟩ := takeWhile_append_of_any hany y
        rw [htake, hdrop]
        exact .inr rfl
      · refine .inl ⟨nofun, ?_⟩
        show ∀ e ∈ (d :: x).dropWhile isNameChar, _
        rw [List.dropWhile_eq_nil_iff.mpr hall]
        exact nofun

/-- A lexeme that is no separator is the same if the text goes on, or nothing but a part of a name is
left behind it. -/
theorem tail_or_stable {before : Option Char} {c : Char} (hcut : c ≠ ';') (x y : List Char) :
    Tail (next before c x) ∨ Stable before c x y := by
  by_cases hquote : c = '\''
  · subst hquote
    exact tail_or_eq_ofSpan (stable_quoted '\'' x y) ['\'']
  by_cases hdouble : c = '"'
  · subst hdouble
    exact tail_or_eq_ofSpan (stable_quoted '"' x y) ['"']
  by_cases hdollar : c = '$'
  · subst hdollar
    exact tail_or_stable_dollar before x y
  by_cases hsigil : c = '@' ∨ c = ':'
  · exact tail_or_stable_sigil hsigil x y
  -- What is left are the two openings of comments, of which the second character can be cut off.
  cases x with
  | nil =>
    refine .inl ?_
    rw [next_plain hquote hdouble hdollar hcut ?_ ?_ hsigil]
    · exact ⟨nofun, nofun⟩
    · exact fun tail _ htail => nomatch htail
    · exact fun tail _ htail => nomatch htail
  | cons d x =>
    by_cases hline : c = '-' ∧ d = '-'
    · obtain ⟨rfl, rfl⟩ := hline
      exact tail_or_eq_ofSpan (stable_lineComment x y) ['-', '-']
    by_cases hblock : c = '/' ∧ d = '*'
    · obtain ⟨rfl, rfl⟩ := hblock
      exact tail_or_eq_ofSpan (stable_blockComment 0 x y) ['/', '*']
    have hplain : ∀ rest, next before c (d :: rest) = (.plain c, d :: rest) := by
      intro rest
      refine next_plain hquote hdouble hdollar hcut ?_ ?_ hsigil
      · exact fun tail hc htail => hline ⟨hc, (List.cons.inj htail).1⟩
      · exact fun tail hc htail => hblock ⟨hc, (List.cons.inj htail).1⟩
    refine .inr ?_
    show next before c (d :: (x ++ y)) = _
    rw [hplain, hplain]
    rfl

/-- What holds of the lexemes of a text holds of those of the text when it is cut off, if it holds of
the characters of names and cannot be lost by the lexeme in which the cut is. -/
theorem forall_of_cut {p : Lexeme → Prop} (hname : ∀ c, isNameChar c = true → p (plain c))
    (hcut : ∀ {before c x y}, p (next before c (x ++ y)).1 → p (next before c x).1)
    {before : Option Char} {x y : List Char} {ls more : List Lexeme}
    (h : scan before (x ++ y) = ls ++ more) (hls : ∀ l ∈ ls, p l)
    (hlength : x.length ≤ (segmentText ls).length) : ∀ l ∈ scan before x, p l := by
  -- The induction is on the length of what is left of the text, lexeme by lexeme.
  induction hn : x.length using Nat.strong_induction_on generalizing before x ls with
  | _ n ih =>
    cases x with
    | nil =>
      rw [scan_nil]
      exact nofun
    | cons c x =>
      cases ls with
      | nil => exact absurd hlength (Nat.not_succ_le_zero _)
      | cons l ls =>
        rw [List.cons_append, scan_cons, List.cons_append] at h
        obtain ⟨hl, hrest⟩ := List.cons.inj h
        have hfirst : p (next before c x).1 := hcut (hl ▸ hls l List.mem_cons_self)
        have hor : (∀ d ∈ (next before c x).2, isNameChar d = true) ∨ Stable before c x y := by
          by_cases hc : c = ';'
          · subst hc
            exact .inr rfl
          · exact (@tail_or_stable before c hc x y).imp_left And.right
        rw [scan_cons, List.forall_mem_cons]
        refine ⟨hfirst, ?_⟩
        rcases hor with hnames | hstable
        · have hscan := scan_names hnames (next before c x).1.text.getLast? []
          rw [List.append_nil, scan_nil, List.append_nil] at hscan
          rw [hscan, List.forall_mem_map]
          exact fun d hd => hname d (hnames d hd)
        · unfold Stable at hstable
          rw [hstable] at hl hrest
          have hsame : (next before c x).1 = l := hl
          have htext := congrArg List.length (text_next before c x)
          have hshorter := length_next_lt before c x
          rw [List.length_append] at htext
          rw [segmentText_cons, List.length_append, ← hsame] at hlength
          exact ih _ (by omega) hrest (fun m hm => hls m (List.mem_cons_of_mem l hm)) (by omega) rfl

theorem ne_separator_of_cut {before : Option Char} {c : Char} {x y : List Char}
    (h : (next before c (x ++ y)).1 ≠ separator) : (next before c x).1 ≠ separator := by
  by_cases hc : c = ';'
  · subst hc
    exact absurd rfl h
  · rcases @tail_or_stable before c hc x y with ⟨hne, -⟩ | hstable
    · exact hne
    · unfold Stable at hstable
      rw [hstable] at h
      exact h

/-- No separator appears in lexemes that have none when the text is cut off. -/
theorem no_separator_of_cut {before : Option Char} {x y : List Char} {ls more : List Lexeme}
    (h : scan before (x ++ y) = ls ++ more) (hls : separator ∉ ls)
    (hlength : x.length ≤ (segmentText ls).length) : separator ∉ scan before x := by
  have hnone : ∀ l ∈ scan before x, l ≠ separator :=
    forall_of_cut (fun _ _ => nofun) ne_separator_of_cut h
      (fun l hl heq => hls (heq ▸ hl)) hlength
  exact fun hin => hnone _ hin rfl

end Lexeme

/-! ## Statements that are read again -/

theorem attaches_closed (before : List (List Lexeme)) :
    attaches ((segmentText (closed before)).getLast?.or none) = false := by
  cases hbefore : before.reverse with
  | nil =>
    rw [List.reverse_eq_nil_iff.mp hbefore]
    rfl
  | cons last others =>
    have hlast : before = others.reverse ++ [last] := by
      rw [← List.reverse_reverse before, hbefore, List.reverse_cons]
    have hclosed : closed before = closed others.reverse ++ last ++ [.separator] := by
      rw [hlast, closed, List.flatMap_append, List.flatMap_singleton, List.append_assoc]
      rfl
    have hsemicolon : segmentText [Lexeme.separator] = [';'] := rfl
    rw [hclosed, segmentText_append, hsemicolon, List.getLast?_concat]
    decide

/-- A segment has no separator either when it is read on its own, without the blanks around it. -/
theorem no_separator_of_trim {cs : List Char} {before after : List (List Lexeme)}
    {segment : List Lexeme}
    (h : segments (Lexeme.scan none cs) = before ++ segment :: after) :
    Lexeme.separator ∉ Lexeme.scan none (Text.trimBlanks (segmentText segment)) := by
  obtain ⟨hsegment, more, hscan, -⟩ := segments_eq_append h
  have htext := (Text.leading_trimEnds_trailing Text.isBlank (segmentText segment)).symm
  rw [← Text.trimBlanks_eq] at htext
  have hsuffix := Lexeme.scan_suffix hscan
  rw [segmentText_append, htext, List.append_assoc] at hsuffix
  have hshort : (Text.leading Text.isBlank (segmentText segment) ++
      Text.trimBlanks (segmentText segment)).length ≤
      (segmentText segment).length := by
    have hlength := congrArg List.length htext
    rw [List.length_append] at hlength
    omega
  have hnone := Lexeme.no_separator_of_cut hsuffix.symm hsegment hshort
  rw [Lexeme.scan_blanks (attaches_closed before) fun c hc => Text.of_mem_leading hc] at hnone
  exact fun hin => hnone (List.mem_append_right _ hin)

/-- A statement that is read again is that statement. -/
theorem split_sql_of_split {sql : String} {s : Statement} (h : s ∈ split false sql) :
    split false s.sql = [s] := by
  obtain ⟨segment, hmem, hs⟩ := List.mem_filterMap.mp h
  obtain ⟨before, after, hsegments⟩ := List.append_of_mem hmem
  have hnone := no_separator_of_trim hsegments
  have hstatement : ofSegment? false segment =
      if (Text.trimBlanks (segmentText segment)).isEmpty then none
      else some ⟨String.ofList (Text.trimBlanks (segmentText segment)), []⟩ := rfl
  rw [hstatement] at hs
  cases hempty : (Text.trimBlanks (segmentText segment)).isEmpty with
  | true =>
    rw [hempty] at hs
    cases hs
  | false =>
    rw [hempty] at hs
    obtain rfl := (Option.some.inj hs).symm
    unfold split
    rw [String.toList_ofList, segments_of_no_separator hnone, List.filterMap_cons,
      List.filterMap_nil]
    have hagain : ofSegment? false
        (Lexeme.scan none (Text.trimBlanks (segmentText segment))) =
          some ⟨String.ofList (Text.trimBlanks (segmentText segment)), []⟩ := by
      simp only [ofSegment?, if_false, segmentText_scan, Text.trimBlanks_trimBlanks, hempty,
        Bool.false_eq_true, List.map_nil]
    rw [hagain]

end Statement
end SqlSession
