import SqlSession.Proofs.Statement.Bytes
import SqlSession.Proofs.Statement.Opaque

/-!
# Spans in bytes

What the lexer takes as one span, character by character, the scanner goes over byte by byte without
being in the normal mode.  It comes out behind the span, or at the end of the text if the span is
not closed.
-/

namespace SqlSession
namespace Statement
namespace Scanner

open Text

variable {numbered : Bool} {s : Scanner}

/-- The scanner comes from `s` to the end of a span. -/
def Spans (numbered : Bool) (s : Scanner) (span : Span) : Prop :=
  ∃ mode, Hidden numbered s (s.keep (utf8 span.taken) (utf8 span.rest) mode) ∧
    (mode = .normal ∨ span.rest = [])

theorem Spans.of_end (hmode : s.mode ≠ .normal) (hrest : s.rest = []) :
    Spans numbered s ⟨[], false, []⟩ := by
  obtain ⟨mode, hhidden, -⟩ : Unended numbered s := .of_end hmode hrest
  rw [hrest] at hhidden
  exact ⟨mode, hhidden, .inr rfl⟩

/-- The scanner goes over some characters, and then over the others. -/
theorem Spans.append (cs : List Char) {rest : List UInt8} {mode : Mode} {span : Span}
    (h : Hidden numbered s (s.keep (utf8 cs) rest mode))
    (h' : Spans numbered (s.keep (utf8 cs) rest mode) span) :
    Spans numbered s ⟨cs ++ span.taken, span.closed, span.rest⟩ := by
  obtain ⟨mode', hhidden, hmode'⟩ := h'
  refine ⟨mode', ?_, hmode'⟩
  rw [keep_keep, ← utf8_append] at hhidden
  exact h.trans hhidden

theorem Spans.closed {taken rest : List Char}
    (h : Hidden numbered s (s.keep (utf8 taken) (utf8 rest) .normal)) :
    Spans numbered s ⟨taken, true, rest⟩ := ⟨.normal, h, .inl rfl⟩

/-! ## Quoted text -/

theorem quotedBody_of_forall {mark : UInt8} {body : List UInt8} (h : mark ∉ body) :
    QuotedBody mark body := by
  induction body with
  | nil => exact .nil
  | cons b body ih =>
    refine .other ?_ (ih fun hin => h (List.mem_cons_of_mem b hin))
    exact fun hb => h (hb ▸ List.mem_cons_self)

theorem hidden_quotedChar {c mark : Char} (hmark : mark.toNat < 128) (hc : c ≠ mark)
    {cs : List Char} (hmode : s.mode = .quoted mark.toUInt8) (hrest : s.rest = utf8 (c :: cs)) :
    Hidden numbered s (s.keep (utf8 [c]) (utf8 cs) (.quoted mark.toUInt8)) := by
  rw [utf8_singleton]
  refine hidden_quotedBody (quotedBody_of_forall (not_mem_utf8EncodeChar hmark hc)) hmode ?_
  rw [hrest, utf8_cons]

theorem spans_quoted {mark : Char} (hmark : mark.toNat < 128) {cs : List Char}
    (hmode : s.mode = .quoted mark.toUInt8) (hrest : s.rest = utf8 cs) :
    Spans numbered s (quoted mark cs) := by
  have hne : s.mode ≠ .normal := by simp [hmode]
  fun_induction quoted mark cs generalizing s with
  | case1 => exact .of_end hne hrest
  | case2 c =>
    by_cases hc : c = mark
    · subst hc
      rw [utf8_cons_ascii hmark] at hrest
      rw [beq_self_eq_true]
      refine .closed (.single hne ?_)
      rw [step?_quoted hmode hrest, stepQuoted, if_pos rfl, utf8_singleton_ascii hmark]
      rfl
    · rw [beq_eq_false_iff_ne.mpr hc]
      exact .append [c] (hidden_quotedChar hmark hc hmode hrest) (.of_end (by simp [keep]) rfl)
  | case3 rest ih =>
    have hpair : utf8 [mark, mark] = [mark.toUInt8, mark.toUInt8] := by
      rw [utf8_cons_ascii hmark, utf8_singleton_ascii hmark]
    rw [utf8_cons_ascii hmark, utf8_cons_ascii hmark] at hrest
    refine .append [mark, mark] (.single hne ?_) (ih rfl rfl (by simp [keep]))
    rw [step?_quoted hmode hrest, stepQuoted, if_pos rfl, hpair]
    exact congrArg some (if_pos rfl)
  | case4 d rest hd =>
    have hnext : ¬ (utf8 (d :: rest)).head? = some mark.toUInt8 := by
      rw [head?_utf8 hmark]
      exact fun h => hd (Option.some.inj h)
    rw [utf8_cons_ascii hmark] at hrest
    refine .closed (.single hne ?_)
    rw [step?_quoted hmode hrest, stepQuoted, if_pos rfl, if_neg hnext, utf8_singleton_ascii hmark]
  | case5 c d rest hc ih =>
    exact .append [c] (hidden_quotedChar hmark hc hmode hrest) (ih rfl rfl (by simp [keep]))

/-! ## Line comments -/

theorem spans_lineComment {cs : List Char} (hmode : s.mode = .lineComment)
    (hrest : s.rest = utf8 cs) : Spans numbered s (lineComment cs) := by
  have hne : s.mode ≠ .normal := by simp [hmode]
  induction cs generalizing s with
  | nil => exact .of_end hne hrest
  | cons c rest ih =>
    unfold lineComment
    by_cases hc : c = '\n'
    · subst hc
      have hline : utf8 ['\n'] = ['\n'.toUInt8] := utf8_singleton_ascii (by decide)
      rw [utf8_cons_ascii (by decide)] at hrest
      rw [if_pos rfl]
      refine .closed (.single hne ?_)
      rw [step?_lineComment hmode hrest, stepLineComment, if_pos rfl, hline]
    · have hchar : Hidden numbered s (s.keep (utf8 [c]) (utf8 rest) .lineComment) := by
        rw [utf8_singleton]
        exact hidden_lineBody (not_mem_utf8EncodeChar (by decide) hc) hmode hrest
      rw [if_neg hc]
      exact .append [c] hchar (ih rfl rfl (by simp [keep]))

/-! ## Block comments -/

theorem hidden_commentBytes {depth : Nat} {bytes post : List UInt8}
    (hslash : '/'.toUInt8 ∉ bytes) (hstar : '*'.toUInt8 ∉ bytes)
    (hmode : s.mode = .blockComment depth) (hrest : s.rest = bytes ++ post) :
    Hidden numbered s (s.keep bytes post (.blockComment depth)) := by
  refine hidden_bytes nofun ?_ hmode hrest
  intro s b rest hb hmode hrest
  rw [step?_blockComment hmode hrest]
  refine congrArg some (stepBlockComment_other ?_ ?_)
  · exact fun h => hslash (h.1 ▸ hb)
  · exact fun h => hstar (h.1 ▸ hb)

/-- A character that neither opens nor closes a comment with the next one. -/
theorem hidden_commentChar {depth : Nat} {c : Char} {cs : List Char}
    (hopens : ∀ rest, c = '/' → cs = '*' :: rest → False)
    (hcloses : ∀ rest, c = '*' → cs = '/' :: rest → False)
    (hmode : s.mode = .blockComment depth) (hrest : s.rest = utf8 (c :: cs)) :
    Hidden numbered s (s.keep (utf8 [c]) (utf8 cs) (.blockComment depth)) := by
  have hne : s.mode ≠ .normal := by simp [hmode]
  have hhead : ∀ {d : Char}, d.toNat < 128 → (utf8 cs).head? = some d.toUInt8 →
      ∃ rest, cs = d :: rest := by
    intro d hd hnext
    exact List.head?_eq_some_iff.mp ((head?_utf8 hd cs).mp hnext)
  by_cases hspecial : c = '/' ∨ c = '*'
  · have hc : c.toNat < 128 := by
      rcases hspecial with rfl | rfl
      · decide
      · decide
    have hone : ∀ {d : Char}, d.toNat < 128 → c.toUInt8 = d.toUInt8 → c = d :=
      fun hd => (toUInt8_inj hc hd).mp
    rw [utf8_cons_ascii hc] at hrest
    rw [utf8_singleton_ascii hc]
    refine .single hne ?_
    rw [step?_blockComment hmode hrest]
    refine congrArg some (stepBlockComment_other ?_ ?_)
    · intro hgiven
      obtain ⟨hb, hnext⟩ := hgiven
      obtain ⟨rest, hcs⟩ := hhead (by decide) hnext
      exact hopens rest (hone (by decide) hb) hcs
    · intro hgiven
      obtain ⟨hb, hnext⟩ := hgiven
      obtain ⟨rest, hcs⟩ := hhead (by decide) hnext
      exact hcloses rest (hone (by decide) hb) hcs
  · rw [not_or] at hspecial
    rw [utf8_singleton]
    refine hidden_commentBytes ?_ ?_ hmode hrest
    · exact not_mem_utf8EncodeChar (by decide) hspecial.1
    · exact not_mem_utf8EncodeChar (by decide) hspecial.2

theorem spans_blockComment {outer : Nat} {cs : List Char}
    (hmode : s.mode = .blockComment (outer + 1)) (hrest : s.rest = utf8 cs) :
    Spans numbered s (blockComment outer cs) := by
  have hne : s.mode ≠ .normal := by simp [hmode]
  have hopen : utf8 ['/', '*'] = ['/'.toUInt8, '*'.toUInt8] := rfl
  have hclose : utf8 ['*', '/'] = ['*'.toUInt8, '/'.toUInt8] := rfl
  fun_induction blockComment outer cs generalizing s with
  | case1 => exact .of_end hne hrest
  | case2 outer rest ih =>
    refine .append ['/', '*'] (.single hne ?_) (ih rfl rfl (by simp [keep]))
    rw [step?_blockComment hmode hrest, hopen]
    exact congrArg some stepBlockComment_opens
  | case3 rest =>
    refine .closed (.single hne ?_)
    rw [step?_blockComment hmode hrest, hclose]
    exact congrArg some stepBlockComment_closes
  | case4 rest outer ih =>
    refine .append ['*', '/'] (.single hne ?_) (ih rfl rfl (by simp [keep]))
    rw [step?_blockComment hmode hrest, hclose]
    refine congrArg some (stepBlockComment_closes.trans ?_)
    rw [if_neg (by omega)]
    rfl
  | case5 outer c rest hopens hcloses ih =>
    exact .append [c] (hidden_commentChar hopens hcloses hmode hrest) (ih rfl rfl (by simp [keep]))

/-! ## Dollar quotes -/

theorem hidden_dollarBytes {tag bytes post : List UInt8} (h : '$'.toUInt8 ∉ bytes)
    (hmode : s.mode = .dollarQuoted tag) (hrest : s.rest = bytes ++ post) :
    Hidden numbered s (s.keep bytes post (.dollarQuoted tag)) := by
  refine hidden_bytes nofun ?_ hmode hrest
  intro s b rest hb hmode hrest
  rw [step?_dollarQuoted hmode hrest]
  refine congrArg some (stepDollarQuoted_other ?_)
  intro hprefix
  exact h ((List.cons_prefix_cons.mp hprefix).1 ▸ hb)

theorem spans_dollarBody {tag : List Char} (htag : ∀ c ∈ tag, c.toNat < 128) {cs : List Char}
    (hmode : s.mode = .dollarQuoted (utf8 tag)) (hrest : s.rest = utf8 cs) :
    Spans numbered s (dollarBody ('$' :: (tag ++ ['$'])) cs) := by
  have hne : s.mode ≠ .normal := by simp [hmode]
  have hascii : ∀ c ∈ '$' :: (tag ++ ['$']), c.toNat < 128 := by
    intro c hc
    rcases List.mem_cons.mp hc with rfl | hc
    · decide
    · rcases List.mem_append.mp hc with hc | hc
      · exact htag c hc
      · rw [List.mem_singleton.mp hc]
        decide
  induction cs generalizing s with
  | nil => exact .of_end hne hrest
  | cons c rest ih =>
    unfold dollarBody
    by_cases hprefix : ('$' :: (tag ++ ['$'])).isPrefixOf (c :: rest) = true
    · rw [if_pos hprefix]
      obtain ⟨post, hpost⟩ := List.isPrefixOf_iff_prefix.mp hprefix
      rw [← hpost, List.drop_left]
      refine .closed (.single hne ?_)
      rw [← hpost, utf8_append, utf8_dollarMark] at hrest
      rw [utf8_dollarMark]
      have hcons : s.rest = '$'.toUInt8 :: (utf8 tag ++ ['$'.toUInt8] ++ utf8 post) := hrest
      rw [step?_dollarQuoted hmode hcons]
      exact congrArg some (stepDollarQuoted_closes rfl)
    · have hchar : Hidden numbered s (s.keep (utf8 [c]) (utf8 rest) (.dollarQuoted (utf8 tag))) := by
        by_cases hc : c = '$'
        · subst hc
          have hnot : ¬ dollarMark (utf8 tag) <+: '$'.toUInt8 :: utf8 rest := by
            rw [← utf8_dollarMark, ← utf8_cons_ascii (by decide), prefix_utf8 hascii,
              ← List.isPrefixOf_iff_prefix]
            exact hprefix
          rw [utf8_cons_ascii (by decide)] at hrest
          rw [utf8_singleton_ascii (by decide)]
          refine .single hne ?_
          rw [step?_dollarQuoted hmode hrest]
          exact congrArg some (stepDollarQuoted_other hnot)
        · rw [utf8_singleton]
          exact hidden_dollarBytes (not_mem_utf8EncodeChar (by decide) hc) hmode hrest
      rw [if_neg hprefix]
      exact .append [c] hchar (ih rfl rfl (by simp [keep]))

end Scanner
end Statement
end SqlSession
