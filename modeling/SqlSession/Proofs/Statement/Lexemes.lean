import SqlSession.Proofs.Statement.Bytes

/-!
# Lexemes and the text around them

A lexeme is determined by what follows and by the character before it.  So what is left behind some
lexemes of a text has the other lexemes (`Lexeme.scan_suffix`).
-/

namespace SqlSession
namespace Statement

theorem segmentText_append (xs ys : List Lexeme) :
    segmentText (xs ++ ys) = segmentText xs ++ segmentText ys := List.flatMap_append

theorem segmentText_cons (l : Lexeme) (ls : List Lexeme) :
    segmentText (l :: ls) = l.text ++ segmentText ls := List.flatMap_cons

theorem segmentText_scan (before : Option Char) (cs : List Char) :
    segmentText (Lexeme.scan before cs) = cs :=
  Lexeme.text_scan before cs

namespace Lexeme

theorem next_semicolon (before : Option Char) (rest : List Char) :
    next before ';' rest = (separator, rest) := rfl

/-- What is left behind some lexemes has the other lexemes. -/
theorem scan_suffix {before : Option Char} {cs : List Char} {xs ys : List Lexeme}
    (h : scan before cs = xs ++ ys) :
    ys = scan ((segmentText xs).getLast?.or before) (segmentText ys) := by
  induction xs generalizing before cs with
  | nil =>
    have htext : segmentText ys = cs := by
      rw [← text_scan before cs, h]
      rfl
    rw [htext]
    exact h.symm
  | cons l xs ih =>
    cases cs with
    | nil =>
      rw [scan_nil] at h
      cases h
    | cons c rest =>
      rw [scan_cons] at h
      obtain ⟨hl, hrest⟩ := List.cons.inj h
      have hys := ih hrest
      have hne : l.text ≠ [] := hl ▸ text_next_ne_nil before c rest
      rw [hl] at hys
      rw [segmentText_cons, List.getLast?_append, Option.or_assoc,
        List.getLast?_eq_some_getLast hne, Option.some_or]
      rw [List.getLast?_eq_some_getLast hne] at hys
      exact hys

/-- The first lexeme that is left, and what it is made from. -/
theorem next_of_suffix {before : Option Char} {cs : List Char} {xs ys : List Lexeme} {l : Lexeme}
    (h : scan before cs = xs ++ l :: ys) :
    ∃ c rest, segmentText (l :: ys) = c :: rest ∧
      l = (next ((segmentText xs).getLast?.or before) c rest).1 := by
  have hsuffix := scan_suffix h
  cases htext : segmentText (l :: ys) with
  | nil =>
    rw [htext, scan_nil] at hsuffix
    cases hsuffix
  | cons c rest =>
    rw [htext, scan_cons] at hsuffix
    exact ⟨c, rest, rfl, (List.cons.inj hsuffix).1⟩

/-! ## The first lexeme -/

theorem next_sigil {before : Option Char} {c : Char} (hc : c = '@' ∨ c = ':') (rest : List Char) :
    next before c rest =
      if !attaches before && rest.head?.any isNameStart then
        (.placeholder c (rest.takeWhile isNameChar), rest.dropWhile isNameChar)
      else (.plain c, rest) := by
  have hname := placeholderName?.eq_def before rest
  split at hname
  · next hstart =>
    rw [if_pos hstart]
    rcases hc with rfl | rfl <;> simp [next, hname]
  · next hstart =>
    rw [if_neg hstart]
    rcases hc with rfl | rfl <;> simp [next, hname]

theorem next_plain {before : Option Char} {c : Char} {rest : List Char} (hquote : c ≠ '\'')
    (hdouble : c ≠ '"') (hdollar : c ≠ '$') (hcut : c ≠ ';')
    (hline : ∀ tail, c = '-' → rest = '-' :: tail → False)
    (hblock : ∀ tail, c = '/' → rest = '*' :: tail → False) (hsigil : ¬ (c = '@' ∨ c = ':')) :
    next before c rest = (.plain c, rest) := by
  unfold next
  split
  case h_1 => exact absurd rfl hquote
  case h_2 => exact absurd rfl hdouble
  case h_3 tail => exact (hline tail rfl rfl).elim
  case h_4 tail => exact (hblock tail rfl rfl).elim
  case h_5 => exact absurd rfl hdollar
  case h_6 => exact absurd rfl hcut
  case h_7 => rw [if_neg hsigil]

theorem next_of_not_special {c : Char} (hc : c ∉ specialChars) (before : Option Char)
    (rest : List Char) : next before c rest = (.plain c, rest) := by
  simp only [specialChars, List.mem_cons, List.not_mem_nil, or_false, not_or] at hc
  obtain ⟨hquote, hdouble, hdash, hslash, hdollar, hcut, hsigil⟩ := hc
  refine next_plain hquote hdouble hdollar hcut ?_ ?_ (not_or.mpr hsigil)
  · exact fun _ hc _ => hdash hc
  · exact fun _ hc _ => hslash hc

theorem placeholder_of_next {before : Option Char} {c sigil : Char} {rest name : List Char}
    (h : .placeholder sigil name = (next before c rest).1) :
    sigil = c ∧ (c = '@' ∨ c = ':') ∧ (!attaches before && rest.head?.any isNameStart) = true ∧
      name = rest.takeWhile isNameChar := by
  by_cases hsigil : c = '@' ∨ c = ':'
  · rw [next_sigil hsigil] at h
    split at h
    · next hopens =>
      cases h
      exact ⟨rfl, hsigil, hopens, rfl⟩
    · cases h
  · unfold next at h
    split at h
    case h_5 => split at h <;> cases h
    case h_7 =>
      rw [if_neg hsigil] at h
      cases h
    all_goals cases h

/-! ## The character before a text -/

theorem next_congr {before earlier : Option Char} (h : attaches before = attaches earlier) (c : Char)
    (rest : List Char) : next before c rest = next earlier c rest := by
  by_cases hsigil : c = '@' ∨ c = ':'
  · rw [next_sigil hsigil, next_sigil hsigil, h]
  · unfold next
    split
    case h_7 => rw [if_neg hsigil, if_neg hsigil]
    all_goals rfl

theorem scan_congr {before earlier : Option Char} (h : attaches before = attaches earlier)
    (cs : List Char) : scan before cs = scan earlier cs := by
  cases cs with
  | nil => rw [scan_nil, scan_nil]
  | cons c rest => rw [scan_cons, scan_cons, next_congr h]

/-! ## Blanks -/

theorem attaches_blank {c : Char} (hc : Text.isBlank c = true) : attaches (some c) = false := by
  cases hattaches : attaches (some c) with
  | false => rfl
  | true =>
    simp only [attaches, Option.any_some, Bool.or_eq_true, beq_iff_eq] at hattaches
    have hnot : Text.isBlank c = false := by
      rcases hattaches with (hname | rfl) | rfl
      · exact not_isBlank_of_isNameChar hname
      · decide
      · decide
    rw [hnot] at hc
    cases hc

/-- Blanks in front of a text change nothing behind them. -/
theorem scan_blanks {before : Option Char} (hbefore : attaches before = false) {lead : List Char}
    (hlead : ∀ c ∈ lead, Text.isBlank c = true) (cs : List Char) :
    scan before (lead ++ cs) = lead.map plain ++ scan none cs := by
  induction lead generalizing before with
  | nil => exact scan_congr hbefore cs
  | cons c lead ih =>
    have hc := hlead c List.mem_cons_self
    have hspecial : c ∉ specialChars := not_mem_specialChars (by decide) hc
    rw [List.cons_append, scan_cons, next_of_not_special hspecial]
    show plain c :: scan (some c) (lead ++ cs) = _
    rw [ih (attaches_blank hc) fun d hd => hlead d (List.mem_cons_of_mem c hd)]
    rfl

end Lexeme
end Statement
end SqlSession
