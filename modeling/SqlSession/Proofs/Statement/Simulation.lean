import SqlSession.Proofs.Statement.Spans

/-!
# The scanner goes from lexeme to lexeme

Whenever the scanner is in the normal mode at the start of a lexeme it comes to the start of the
next one, and on the way there it sees no semicolon and no sigil in the normal mode
(`Scanner.passes_next`).  So the scanners that see one stand at the start of a lexeme.
-/

namespace SqlSession
namespace Statement
namespace Scanner

open Text

variable {numbered : Bool} {s t u : Scanner}

/-! ## Bytes that mean nothing in the normal mode -/

/-- The byte starts no lexeme other than a plain character. -/
def Ordinary (b : UInt8) : Prop := ∀ d ∈ specialChars, b ≠ d.toUInt8

theorem ordinary_of_mem {c : Char} (hc : c ∉ specialChars) {b : UInt8}
    (hb : b ∈ String.utf8EncodeChar c) : Ordinary b := by
  intro d hd heq
  subst heq
  exact hc (eq_of_mem_utf8EncodeChar (lt_of_mem_specialChars hd) hb ▸ hd)

theorem ordinary_of_isNameByte {b : UInt8} (hb : isNameByte b = true) : Ordinary b := by
  intro d hd heq
  subst heq
  exact not_mem_specialChars (p := fun x => isNameByte x.toUInt8) (by decide) hb hd

/-- In the normal mode the scanner does not stand before a semicolon or a sigil. -/
def Quiet (s : Scanner) : Prop :=
  s.mode = .normal → ∀ b ∈ s.rest.head?, b ≠ ';'.toUInt8 ∧ b ≠ '@'.toUInt8 ∧ b ≠ ':'.toUInt8

theorem quiet_of_hidden (h : s.mode ≠ .normal) : s.Quiet := fun hmode => absurd hmode h

theorem stepNormal_plain {b : UInt8} {rest : List UInt8}
    (hquote : ¬ (b = '\''.toUInt8 ∨ b = '"'.toUInt8))
    (hline : ¬ (b = '-'.toUInt8 ∧ rest.head? = some '-'.toUInt8))
    (hblock : ¬ (b = '/'.toUInt8 ∧ rest.head? = some '*'.toUInt8))
    (hdollar : b = '$'.toUInt8 → tag? rest = none) (hcut : b ≠ ';'.toUInt8)
    (hname : (numbered && opensPlaceholder s.passed b rest) = false) :
    s.stepNormal numbered b rest = s.keep [b] rest .normal := by
  unfold stepNormal
  rw [if_neg hquote, if_neg hline, if_neg hblock, if_neg hcut, hname]
  by_cases hb : b = '$'.toUInt8
  · rw [if_pos hb, hdollar hb]
  · rw [if_neg hb]
    rfl

theorem opensPlaceholder_of_ne {passed rest : List UInt8} {b : UInt8} (hat : b ≠ '@'.toUInt8)
    (hcolon : b ≠ ':'.toUInt8) : opensPlaceholder passed b rest = false := by
  unfold opensPlaceholder
  rw [decide_eq_false hat, decide_eq_false hcolon]
  rfl

theorem stepNormal_ordinary {b : UInt8} {rest : List UInt8} (h : Ordinary b) :
    s.stepNormal numbered b rest = s.keep [b] rest .normal := by
  simp only [Ordinary, specialChars, List.forall_mem_cons] at h
  obtain ⟨hquote, hdouble, hdash, hslash, hdollar, hcut, hat, hcolon, -⟩ := h
  refine stepNormal_plain ?_ ?_ ?_ ?_ hcut ?_
  · exact not_or.mpr ⟨hquote, hdouble⟩
  · exact fun hpair => hdash hpair.1
  · exact fun hpair => hslash hpair.1
  · exact fun hb => absurd hb hdollar
  · rw [opensPlaceholder_of_ne hat hcolon, Bool.and_false]

/-- Ordinary bytes are kept, and none of them is a semicolon or a sigil. -/
theorem run_ordinary {bytes post : List UInt8} (h : ∀ b ∈ bytes, Ordinary b)
    (hmode : s.mode = .normal) (hrest : s.rest = bytes ++ post) :
    ∃ visited, Run numbered s visited (s.keep bytes post .normal) ∧ ∀ u ∈ visited, u.Quiet := by
  induction bytes generalizing s with
  | nil =>
    have hself : s.keep [] post .normal = s := keep_nil hmode hrest
    rw [hself]
    exact ⟨[], .refl s, nofun⟩
  | cons b bytes ih =>
    have hb : Ordinary b := h b List.mem_cons_self
    have hstep : s.step? numbered = some (s.keep [b] (bytes ++ post) .normal) := by
      rw [step?_normal hmode hrest]
      exact congrArg some (stepNormal_ordinary hb)
    have hbytes : ∀ x ∈ bytes, Ordinary x := fun x hx => h x (List.mem_cons_of_mem b hx)
    obtain ⟨visited, hrun, hquiet⟩ := @ih (s.keep [b] (bytes ++ post) .normal) hbytes rfl rfl
    rw [keep_keep] at hrun
    refine ⟨s :: visited, .step hstep hrun, fun u hu => ?_⟩
    rcases List.mem_cons.mp hu with rfl | hu
    · intro _ x hx
      rw [hrest] at hx
      obtain rfl : b = x := Option.some.inj hx
      exact ⟨hb ';' (by decide), hb '@' (by decide), hb ':' (by decide)⟩
    · exact hquiet u hu

/-! ## From lexeme to lexeme -/

/-- The scanner comes from `s` to `t` and is quiet on the way, except perhaps at `s`. -/
def Passes (numbered : Bool) (s t : Scanner) : Prop :=
  ∃ more, Run numbered s (s :: more) t ∧ ∀ u ∈ more, u.Quiet

theorem passes_ordinary {b : UInt8} {bytes post : List UInt8} (h : ∀ x ∈ b :: bytes, Ordinary x)
    (hmode : s.mode = .normal) (hrest : s.rest = b :: (bytes ++ post)) :
    Passes numbered s (s.keep (b :: bytes) post .normal) := by
  have hstep : s.step? numbered = some (s.keep [b] (bytes ++ post) .normal) := by
    rw [step?_normal hmode hrest]
    exact congrArg some (stepNormal_ordinary (h b List.mem_cons_self))
  obtain ⟨visited, hrun, hquiet⟩ : ∃ visited, Run numbered (s.keep [b] (bytes ++ post) .normal)
      visited ((s.keep [b] (bytes ++ post) .normal).keep bytes post .normal) ∧
      ∀ u ∈ visited, u.Quiet :=
    run_ordinary (fun x hx => h x (List.mem_cons_of_mem b hx)) rfl rfl
  rw [keep_keep] at hrun
  exact ⟨visited, .step hstep hrun, hquiet⟩

def absorb (numbered : Bool) (s : Scanner) (l : Lexeme) (rest : List UInt8) : Scanner :=
  match l with
  | .separator => s.cut rest
  | .placeholder sigil name =>
    if numbered then s.number sigil.toUInt8 (utf8 name) rest
    else s.keep (utf8 (sigil :: name)) rest .normal
  | .verbatim text _ => s.keep (utf8 text) rest .normal
  | .plain c => s.keep (utf8 [c]) rest .normal

def inMode (s : Scanner) (mode : Mode) : Scanner :=
  ⟨s.passed, s.rest, mode, s.chunks, s.current, s.names⟩

/-- The scanner comes behind a lexeme.  Only at the end of the text it can still be inside of it. -/
def PassesLexeme (numbered : Bool) (s : Scanner) (found : Lexeme × List Char) : Prop :=
  ∃ mode, Passes numbered s ((s.absorb numbered found.1 (utf8 found.2)).inMode mode) ∧
    (mode = .normal ∨ found.2 = [])

theorem absorb_mode (l : Lexeme) (rest : List UInt8) :
    (s.absorb numbered l rest).mode = .normal := by
  cases l with
  | placeholder sigil name => cases numbered <;> rfl
  | verbatim _ _ | separator | plain _ => rfl

theorem absorb_rest (l : Lexeme) (rest : List UInt8) : (s.absorb numbered l rest).rest = rest := by
  cases l with
  | placeholder sigil name => cases numbered <;> rfl
  | verbatim _ _ | separator | plain _ => rfl

theorem inMode_normal (l : Lexeme) (rest : List UInt8) :
    (s.absorb numbered l rest).inMode .normal = s.absorb numbered l rest := by
  have hmode := @absorb_mode numbered s l rest
  conv => rhs; rw [← keep_nil hmode rfl]
  simp only [inMode, keep, List.append_nil]

theorem Passes.single (h : s.step? numbered = some t) : Passes numbered s t :=
  ⟨[], .single h, nofun⟩

theorem PassesLexeme.of_normal {l : Lexeme} {rest : List Char}
    (h : Passes numbered s (s.absorb numbered l (utf8 rest))) :
    PassesLexeme numbered s (l, rest) := by
  refine ⟨.normal, ?_, .inl rfl⟩
  rw [inMode_normal]
  exact h

theorem passes_ofSpan {opening : List Char} {rest : List UInt8} {mode : Mode} {span : Span}
    (hstep : s.step? numbered = some (s.keep (utf8 opening) rest mode))
    (hspan : Spans numbered (s.keep (utf8 opening) rest mode) span) :
    PassesLexeme numbered s (Lexeme.ofSpan opening span) := by
  obtain ⟨mode', hhidden, hmode'⟩ := hspan
  obtain ⟨more, hrun, hmore⟩ := run_of_hidden hstep hhidden
  rw [← utf8_append] at hrun
  exact ⟨mode', ⟨more, hrun, fun u hu => quiet_of_hidden (hmore u hu)⟩, hmode'⟩

theorem ascii_of_dollarTag? {cs tag body : List Char} (h : dollarTag? cs = some (tag, body)) :
    ∀ c ∈ tag, c.toNat < 128 := by
  unfold dollarTag? at h
  split at h
  · cases h
  · split at h
    · cases h
      intro c hc
      exact asciiOnly_isNameChar c (List.all_eq_true.mp List.all_takeWhile c hc)
    · cases h

theorem passes_plain {c : Char} {rest : List Char} (hmode : s.mode = .normal)
    (hrest : s.rest = utf8 (c :: rest))
    (hspecial : c ∈ specialChars →
      s.stepNormal numbered c.toUInt8 (utf8 rest) = s.keep [c.toUInt8] (utf8 rest) .normal) :
    PassesLexeme numbered s (.plain c, rest) := by
  refine .of_normal ?_
  by_cases hc : c ∈ specialChars
  · have hascii : c.toNat < 128 := lt_of_mem_specialChars hc
    rw [utf8_cons_ascii hascii] at hrest
    refine .single ?_
    rw [step?_normal hmode hrest, hspecial hc, absorb, utf8_singleton_ascii hascii]
  · have hordinary : ∀ b ∈ utf8 [c], Ordinary b := by
      intro b hb
      rw [utf8_singleton] at hb
      exact ordinary_of_mem hc hb
    have happend : s.rest = utf8 [c] ++ utf8 rest := by
      rw [hrest, ← utf8_append]
      rfl
    cases hbytes : utf8 [c] with
    | nil =>
      rw [utf8_singleton] at hbytes
      exact absurd hbytes String.utf8EncodeChar_ne_nil
    | cons b bytes =>
      rw [hbytes] at hordinary happend
      show Passes numbered s (s.keep (utf8 [c]) (utf8 rest) .normal)
      rw [hbytes]
      exact passes_ordinary hordinary hmode happend

theorem passes_separator {rest : List Char} (hmode : s.mode = .normal)
    (hrest : s.rest = utf8 (';' :: rest)) : PassesLexeme numbered s (.separator, rest) := by
  rw [utf8_cons_ascii (by decide)] at hrest
  refine .of_normal (.single ?_)
  have hline : ¬ (';'.toUInt8 = '-'.toUInt8 ∧ (utf8 rest).head? = some '-'.toUInt8) :=
    fun h => absurd h.1 (by decide)
  have hblock : ¬ (';'.toUInt8 = '/'.toUInt8 ∧ (utf8 rest).head? = some '*'.toUInt8) :=
    fun h => absurd h.1 (by decide)
  rw [step?_normal hmode hrest, stepNormal, if_neg (by decide), if_neg hline, if_neg hblock,
    if_neg (by decide), if_pos rfl, absorb]

theorem passes_dollar {rest : List Char} (hmode : s.mode = .normal)
    (hrest : s.rest = utf8 ('$' :: rest)) :
    PassesLexeme numbered s (match dollarTag? rest with
      | some (tag, body) =>
        Lexeme.ofSpan ('$' :: (tag ++ ['$'])) (dollarBody ('$' :: (tag ++ ['$'])) body)
      | none => (.plain '$', rest)) := by
  have hstep : s.step? numbered = some (s.stepNormal numbered '$'.toUInt8 (utf8 rest)) := by
    rw [utf8_cons_ascii (by decide)] at hrest
    exact step?_normal hmode hrest
  rw [stepNormal_dollar, tag?_utf8] at hstep
  cases htag : dollarTag? rest with
  | some found =>
    obtain ⟨tag, body⟩ := found
    rw [htag] at hstep
    have hopen : s.step? numbered = some (s.keep (utf8 ('$' :: (tag ++ ['$']))) (utf8 body)
        (.dollarQuoted (utf8 tag))) := by
      rw [hstep, utf8_dollarMark]
      rfl
    exact passes_ofSpan hopen (spans_dollarBody (ascii_of_dollarTag? htag) rfl rfl)
  | none =>
    rw [htag] at hstep
    exact .of_normal (.single hstep)

theorem stepNormal_placeholder {b : UInt8} {rest : List UInt8}
    (h : opensPlaceholder s.passed b rest = true) :
    s.stepNormal true b rest =
      s.number b (rest.takeWhile isNameByte) (rest.dropWhile isNameByte) := by
  have hb : b = '@'.toUInt8 ∨ b = ':'.toUInt8 := by
    unfold opensPlaceholder at h
    simp only [Bool.and_eq_true, Bool.or_eq_true, decide_eq_true_eq] at h
    exact h.1.1
  have hquote : ¬ (b = '\''.toUInt8 ∨ b = '"'.toUInt8) := by
    rcases hb with rfl | rfl
    · decide
    · decide
  have hne : b ≠ '-'.toUInt8 ∧ b ≠ '/'.toUInt8 ∧ b ≠ '$'.toUInt8 ∧ b ≠ ';'.toUInt8 := by
    rcases hb with rfl | rfl
    · decide
    · decide
  unfold stepNormal
  rw [if_neg hquote, if_neg fun h => hne.1 h.1, if_neg fun h => hne.2.1 h.1, if_neg hne.2.2.1,
    if_neg hne.2.2.2, h]
  rfl

/-- A sigil is numbered with its name, or kept with it, or is a plain character. -/
theorem passes_sigil {before : Option Char} {c : Char} {rest : List Char} (hmode : s.mode = .normal)
    (hrest : s.rest = utf8 (c :: rest)) (hbefore : Agrees before s.passed)
    (hc : c = '@' ∨ c = ':') :
    PassesLexeme numbered s (match placeholderName? before rest with
      | some (name, rest) => (.placeholder c name, rest)
      | none => (.plain c, rest)) := by
  have hopens := hbefore.opensPlaceholder hc rest
  have hascii : c.toNat < 128 := by
    rcases hc with rfl | rfl
    · decide
    · decide
  have hkept : (numbered && opensPlaceholder s.passed c.toUInt8 (utf8 rest)) = false →
      s.stepNormal numbered c.toUInt8 (utf8 rest) = s.keep [c.toUInt8] (utf8 rest) .normal := by
    intro hname
    have hne : (c.toUInt8 ≠ '\''.toUInt8 ∧ c.toUInt8 ≠ '"'.toUInt8) ∧ c.toUInt8 ≠ '-'.toUInt8 ∧
        c.toUInt8 ≠ '/'.toUInt8 ∧ c.toUInt8 ≠ '$'.toUInt8 ∧ c.toUInt8 ≠ ';'.toUInt8 := by
      rcases hc with rfl | rfl
      · decide
      · decide
    obtain ⟨hquote, hdash, hslash, hdollar, hcut⟩ := hne
    refine stepNormal_plain (not_or.mpr hquote) ?_ ?_ ?_ hcut hname
    · exact fun hpair => hdash hpair.1
    · exact fun hpair => hslash hpair.1
    · exact fun hb => absurd hb hdollar
  unfold placeholderName?
  cases hcond : !attaches before && rest.head?.any isNameStart with
  | false =>
    rw [hcond] at hopens
    refine passes_plain hmode hrest fun _ => hkept ?_
    rw [hopens, Bool.and_false]
  | true =>
    rw [hcond] at hopens
    have htake : (utf8 rest).takeWhile isNameByte = utf8 (rest.takeWhile isNameChar) :=
      asciiOnly_isNameChar.takeWhile rest
    have hdrop : (utf8 rest).dropWhile isNameByte = utf8 (rest.dropWhile isNameChar) :=
      asciiOnly_isNameChar.dropWhile rest
    rw [utf8_cons_ascii hascii] at hrest
    have hstep : s.step? numbered = some (s.stepNormal numbered c.toUInt8 (utf8 rest)) :=
      step?_normal hmode hrest
    cases numbered with
    | true =>
      rw [stepNormal_placeholder hopens, htake, hdrop] at hstep
      exact .of_normal (.single hstep)
    | false =>
      rw [hkept rfl] at hstep
      have hname : ∀ b ∈ utf8 (rest.takeWhile isNameChar), Ordinary b := by
        intro b hb
        rw [← htake] at hb
        exact ordinary_of_isNameByte (List.all_eq_true.mp List.all_takeWhile b hb)
      have hsplit : utf8 rest = utf8 (rest.takeWhile isNameChar) ++ utf8 (rest.dropWhile isNameChar) := by
        rw [← utf8_append, List.takeWhile_append_dropWhile]
      obtain ⟨visited, hrun, hquiet⟩ : ∃ visited,
          Run false (s.keep [c.toUInt8] (utf8 rest) .normal) visited
            ((s.keep [c.toUInt8] (utf8 rest) .normal).keep (utf8 (rest.takeWhile isNameChar))
              (utf8 (rest.dropWhile isNameChar)) .normal) ∧
          ∀ u ∈ visited, u.Quiet :=
        run_ordinary hname rfl hsplit
      rw [keep_keep] at hrun
      refine .of_normal ⟨visited, ?_, hquiet⟩
      show Run false s (s :: visited) (s.keep (utf8 (c :: rest.takeWhile isNameChar))
        (utf8 (rest.dropWhile isNameChar)) .normal)
      rw [utf8_cons_ascii hascii]
      exact .step hstep hrun

theorem passes_other {c : Char} {rest : List Char} (hmode : s.mode = .normal)
    (hrest : s.rest = utf8 (c :: rest)) (hquote : c ≠ '\'') (hdouble : c ≠ '"')
    (hdollar : c ≠ '$') (hcut : c ≠ ';') (hline : ∀ tail, c = '-' → rest = '-' :: tail → False)
    (hblock : ∀ tail, c = '/' → rest = '*' :: tail → False) (hsigil : ¬ (c = '@' ∨ c = ':')) :
    PassesLexeme numbered s (.plain c, rest) := by
  rw [not_or] at hsigil
  refine passes_plain hmode hrest fun hspecial => ?_
  have hascii : c.toNat < 128 := lt_of_mem_specialChars hspecial
  have hne : ∀ {d : Char}, d.toNat < 128 → c ≠ d → c.toUInt8 ≠ d.toUInt8 :=
    fun hd h heq => h ((toUInt8_inj hascii hd).mp heq)
  have hpair : ∀ {d e : Char}, d.toNat < 128 → e.toNat < 128 →
      (∀ tail, c = d → rest = e :: tail → False) →
      ¬ (c.toUInt8 = d.toUInt8 ∧ (utf8 rest).head? = some e.toUInt8) := by
    intro d e hd he hnot hgiven
    obtain ⟨hb, hnext⟩ := hgiven
    obtain ⟨tail, htail⟩ := List.head?_eq_some_iff.mp ((head?_utf8 he rest).mp hnext)
    exact hnot tail ((toUInt8_inj hascii hd).mp hb) htail
  refine stepNormal_plain ?_ ?_ ?_ ?_ ?_ ?_
  · exact not_or.mpr ⟨hne (by decide) hquote, hne (by decide) hdouble⟩
  · exact hpair (by decide) (by decide) hline
  · exact hpair (by decide) (by decide) hblock
  · exact fun hb => absurd hb (hne (by decide) hdollar)
  · exact hne (by decide) hcut
  · rw [opensPlaceholder_of_ne (hne (by decide) hsigil.1) (hne (by decide) hsigil.2), Bool.and_false]

theorem passes_quote {mark : Char} (hmark : mark = '\'' ∨ mark = '"') {rest : List Char}
    (hmode : s.mode = .normal) (hrest : s.rest = utf8 (mark :: rest)) :
    PassesLexeme numbered s (Lexeme.ofSpan [mark] (quoted mark rest)) := by
  have hascii : mark.toNat < 128 := by
    rcases hmark with rfl | rfl
    · decide
    · decide
  have hbyte : mark.toUInt8 = '\''.toUInt8 ∨ mark.toUInt8 = '"'.toUInt8 := by
    rcases hmark with rfl | rfl
    · exact .inl rfl
    · exact .inr rfl
  rw [utf8_cons_ascii hascii] at hrest
  have hstep : s.step? numbered =
      some (s.keep (utf8 [mark]) (utf8 rest) (.quoted mark.toUInt8)) := by
    rw [step?_normal hmode hrest, stepNormal_quote hbyte, utf8_singleton_ascii hascii]
  exact passes_ofSpan hstep (spans_quoted hascii rfl rfl)

theorem passes_lineComment {rest : List Char} (hmode : s.mode = .normal)
    (hrest : s.rest = utf8 ('-' :: '-' :: rest)) :
    PassesLexeme numbered s (Lexeme.ofSpan ['-', '-'] (lineComment rest)) := by
  have hstep : s.step? numbered = some (s.keep (utf8 ['-']) (utf8 ('-' :: rest)) .lineComment) := by
    rw [utf8_cons_ascii (by decide), utf8_cons_ascii (by decide)] at hrest
    rw [step?_normal hmode hrest, stepNormal_lineComment, utf8_cons_ascii (by decide)]
    rfl
  -- The scanner reads the second dash inside of the comment.
  have hdash : lineComment ('-' :: rest) = (lineComment rest).cons '-' := if_neg (by decide)
  have hpass : PassesLexeme numbered s (Lexeme.ofSpan ['-'] (lineComment ('-' :: rest))) :=
    passes_ofSpan hstep (spans_lineComment rfl rfl)
  rw [hdash] at hpass
  exact hpass

theorem passes_blockComment {rest : List Char} (hmode : s.mode = .normal)
    (hrest : s.rest = utf8 ('/' :: '*' :: rest)) :
    PassesLexeme numbered s (Lexeme.ofSpan ['/', '*'] (blockComment 0 rest)) := by
  have hstep : s.step? numbered = some (s.keep (utf8 ['/', '*']) (utf8 rest) (.blockComment 1)) := by
    rw [utf8_cons_ascii (by decide), utf8_cons_ascii (by decide)] at hrest
    rw [step?_normal hmode hrest, stepNormal_blockComment]
    rfl
  exact passes_ofSpan hstep (spans_blockComment rfl rfl)

/-- From the start of a lexeme the scanner comes to the start of the next one. -/
theorem passes_next {before : Option Char} {c : Char} {rest : List Char} (hmode : s.mode = .normal)
    (hrest : s.rest = utf8 (c :: rest)) (hbefore : Agrees before s.passed) :
    PassesLexeme numbered s (Lexeme.next before c rest) := by
  unfold Lexeme.next
  split
  case h_1 => exact passes_quote (.inl rfl) hmode hrest
  case h_2 => exact passes_quote (.inr rfl) hmode hrest
  case h_3 => exact passes_lineComment hmode hrest
  case h_4 => exact passes_blockComment hmode hrest
  case h_5 => exact passes_dollar hmode hrest
  case h_6 => exact passes_separator hmode hrest
  case h_7 hquote hdouble hdollar hcut hline hblock =>
    by_cases hsigil : c = '@' ∨ c = ':'
    · rw [if_pos hsigil]
      exact passes_sigil hmode hrest hbefore hsigil
    · rw [if_neg hsigil]
      exact passes_other hmode hrest hquote hdouble hdollar hcut hline hblock hsigil

end Scanner
end Statement
end SqlSession
