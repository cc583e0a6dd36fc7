import Mathlib.Data.List.Chain
import SqlSession.Proofs.Statement.Rescan

/-!
# Reading numbered text again

Numbering puts markers such as `$1` where placeholders were.  A text with markers has the lexemes it
had before, and those of a marker are plain characters (`Lexeme.scan_numbered`), unless a dollar
stands directly before a marker.  Then the dollar and that of the marker can open a dollar quote
(`not_all_split_again`).
-/

namespace SqlSession
namespace Statement

/-! ## Spans before other text -/

namespace Span

/-- The span that `f` has found is closed and is found again before this text, or it has taken
everything. -/
def Detached (f : List Char → Span) (s : Span) (post : List Char) : Prop :=
  (s.closed = true ∧ f (s.taken ++ post) = ⟨s.taken, true, post⟩) ∨
    (s.closed = false ∧ s.rest = [])

/-- The span with these characters in front of it. -/
def behind (opening : List Char) (s : Span) : Span := { s with taken := opening ++ s.taken }

theorem Detached.behind {f g : List Char → Span} {s : Span} {post : List Char}
    (h : Detached g s post) (opening : List Char)
    (hstep : s.closed = true →
      f (opening ++ (s.taken ++ post)) = (g (s.taken ++ post)).behind opening) :
    Detached f (s.behind opening) post := by
  rcases h with ⟨hclosed, hsame⟩ | hopen
  · refine .inl ⟨hclosed, ?_⟩
    show f (opening ++ s.taken ++ post) = _
    rw [List.append_assoc, hstep hclosed, hsame]
    rfl
  · exact .inr hopen

end Span

theorem quoted_cons {c mark : Char} (hc : c ≠ mark) (cs : List Char) :
    quoted mark (c :: cs) = (quoted mark cs).cons c := by
  cases cs with
  | nil => rw [quoted, quoted, beq_eq_false_iff_ne.mpr hc, Span.cons]
  | cons d cs => rw [quoted, if_neg hc]

theorem quoted_end {mark : Char} {post : List Char} (hpost : post.head? ≠ some mark) :
    quoted mark (mark :: post) = ⟨[mark], true, post⟩ := by
  cases post with
  | nil => rw [quoted, beq_self_eq_true]
  | cons d post =>
    have hd : d ≠ mark := fun heq => hpost (congrArg some heq)
    rw [quoted, if_pos rfl, if_neg hd]

theorem head?_quoted (mark : Char) (cs : List Char) : (quoted mark cs).rest.head? ≠ some mark := by
  fun_induction quoted mark cs with
  | case1 => exact (Option.some_ne_none mark).symm
  | case2 => exact (Option.some_ne_none mark).symm
  | case3 rest ih => exact ih
  | case4 d rest hd => exact fun h => hd (Option.some.inj h)
  | case5 c d rest _ ih => exact ih

theorem detached_quoted {mark : Char} {post : List Char} (hpost : post.head? ≠ some mark)
    (cs : List Char) : Span.Detached (quoted mark) (quoted mark cs) post := by
  fun_induction quoted mark cs with
  | case1 => exact .inr ⟨rfl, rfl⟩
  | case2 c =>
    by_cases hc : c = mark
    · subst hc
      exact .inl ⟨beq_self_eq_true c, quoted_end hpost⟩
    · exact .inr ⟨beq_eq_false_iff_ne.mpr hc, rfl⟩
  | case3 rest ih =>
    refine ih.behind [mark, mark] fun _ => ?_
    show quoted mark (mark :: mark :: _) = _
    rw [quoted, if_pos rfl, if_pos rfl]
    rfl
  | case4 d rest hd => exact .inl ⟨rfl, quoted_end hpost⟩
  | case5 c d rest hc ih => exact ih.behind [c] fun _ => quoted_cons hc _

theorem detached_lineComment (cs post : List Char) :
    Span.Detached lineComment (lineComment cs) post := by
  induction cs with
  | nil => exact .inr ⟨rfl, rfl⟩
  | cons c cs ih =>
    by_cases hc : c = '\n'
    · subst hc
      exact .inl ⟨rfl, rfl⟩
    · rw [lineComment, if_neg hc]
      refine ih.behind [c] fun _ => ?_
      show lineComment (c :: _) = _
      rw [lineComment, if_neg hc]
      rfl

/-- A comment that is closed is not over before its closing mark. -/
theorem taken_blockComment_ne_nil {outer : Nat} {cs : List Char}
    (h : (blockComment outer cs).closed = true) : (blockComment outer cs).taken ≠ [] := by
  fun_cases blockComment outer cs with
  | case1 => cases h
  | _ => exact List.cons_ne_nil _ _

theorem detached_blockComment (outer : Nat) (cs post : List Char) :
    Span.Detached (blockComment outer) (blockComment outer cs) post := by
  fun_induction blockComment outer cs with
  | case1 => exact .inr ⟨rfl, rfl⟩
  | case2 outer rest ih =>
    refine ih.behind ['/', '*'] fun _ => ?_
    show blockComment outer ('/' :: '*' :: _) = _
    rw [blockComment]
    rfl
  | case3 rest => exact .inl ⟨rfl, rfl⟩
  | case4 rest outer ih =>
    refine ih.behind ['*', '/'] fun _ => ?_
    show blockComment (outer + 1) ('*' :: '/' :: _) = _
    rw [blockComment]
    rfl
  | case5 outer c rest hopens hcloses ih =>
    refine ih.behind [c] fun hclosed => ?_
    -- What follows the character is what followed it before.
    have hhead : ∀ d tail, (blockComment outer rest).taken ++ post = d :: tail →
        ∃ tail', rest = d :: tail' := by
      intro d tail htail
      obtain ⟨e, taken, htaken⟩ := List.exists_cons_of_ne_nil (taken_blockComment_ne_nil hclosed)
      have hrest := blockComment_taken outer rest
      rw [htaken] at htail hrest
      obtain rfl : e = d := (List.cons.inj htail).1
      exact ⟨_, hrest.symm⟩
    refine blockComment_cons ?_ ?_
    · intro tail hc htail
      obtain ⟨tail', hrest⟩ := hhead '*' tail htail
      exact hopens tail' hc hrest
    · intro tail hc htail
      obtain ⟨tail', hrest⟩ := hhead '/' tail htail
      exact hcloses tail' hc hrest

theorem length_le_taken {closer cs : List Char} (h : (dollarBody closer cs).closed = true) :
    closer.length ≤ (dollarBody closer cs).taken.length := by
  fun_induction dollarBody closer cs with
  | case1 => cases h
  | case2 c rest _ => exact Nat.le_refl _
  | case3 c rest _ ih => exact Nat.le_succ_of_le (ih h)

theorem detached_dollarBody {closer : List Char} (hcloser : closer ≠ []) (cs post : List Char) :
    Span.Detached (dollarBody closer) (dollarBody closer cs) post := by
  fun_induction dollarBody closer cs with
  | case1 => exact .inr ⟨rfl, rfl⟩
  | case2 c rest _ =>
    obtain ⟨d, closer, rfl⟩ := List.exists_cons_of_ne_nil hcloser
    have hprefix : (d :: closer).isPrefixOf (d :: (closer ++ post)) = true :=
      List.isPrefixOf_iff_prefix.mpr (List.prefix_append (d :: closer) post)
    refine .inl ⟨rfl, ?_⟩
    show dollarBody (d :: closer) (d :: (closer ++ post)) = _
    rw [dollarBody, if_pos hprefix, ← List.cons_append, List.drop_left]
  | case3 c rest hnot ih =>
    refine ih.behind [c] fun hclosed => ?_
    have hneg : ¬ closer.isPrefixOf (c :: ((dollarBody closer rest).taken ++ post)) = true := by
      intro hprefix
      apply hnot
      rw [List.isPrefixOf_iff_prefix] at hprefix ⊢
      have htaken : closer <+: c :: (dollarBody closer rest).taken :=
        List.prefix_of_prefix_length_le hprefix (List.prefix_append (c :: _) post)
          (Nat.le_succ_of_le (length_le_taken hclosed))
      refine htaken.trans ⟨(dollarBody closer rest).rest, ?_⟩
      rw [List.cons_append, dollarBody_taken]
    show dollarBody closer (c :: ((dollarBody closer rest).taken ++ post)) = _
    rw [dollarBody, if_neg hneg]
    rfl

/-! ## Lexemes before other text -/

theorem dollarTag?_eq_some_iff {cs tag body : List Char} :
    dollarTag? cs = some (tag, body) ↔
      cs = tag ++ '$' :: body ∧ (∀ c ∈ tag, isNameChar c = true) ∧
        tag.head?.any Char.isDigit = false := by
  have hdollar : isNameChar '$' = false := by decide
  constructor
  · intro h
    refine ⟨(dollarTag?_eq_some h).symm, ?_⟩
    have hcs := dollarTag?_eq_some h
    unfold dollarTag? at h
    split at h
    · cases h
    · next hdigit =>
      split at h
      · cases h
        refine ⟨fun c hc => List.mem_takeWhile_imp hc, ?_⟩
        rw [Bool.not_eq_true] at hdigit
        rw [← hcs] at hdigit
        cases htag : cs.takeWhile isNameChar with
        | nil => rfl
        | cons c tag =>
          rw [htag] at hdigit
          exact hdigit
      · cases h
  · rintro ⟨rfl, hname, hdigit⟩
    have hhead : (tag ++ '$' :: body).head?.any Char.isDigit = false := by
      cases tag with
      | nil => rfl
      | cons c tag => exact hdigit
    have htake : (tag ++ '$' :: body).takeWhile isNameChar = tag := by
      rw [List.takeWhile_append_of_pos hname, List.takeWhile_cons_of_neg (by simp [hdollar]),
        List.append_nil]
    have hdrop : (tag ++ '$' :: body).dropWhile isNameChar = '$' :: body := by
      rw [List.dropWhile_append_of_pos hname, List.dropWhile_cons_of_neg (by simp [hdollar])]
    unfold dollarTag?
    rw [hhead, hdrop, htake]
    rfl

namespace Lexeme

/-- The first character of a text is that of another one, or a dollar, or there is none. -/
def Ahead (cs post : List Char) : Prop :=
  post.head? = cs.head? ∨ post.head? = some '$' ∨ post.head? = none

theorem Ahead.head?_ne {cs post : List Char} (h : Ahead cs post) {d : Char} (hd : d ≠ '$')
    (hcs : cs.head? ≠ some d) : post.head? ≠ some d := by
  rcases h with h | h | h
  · rw [h]
    exact hcs
  · rw [h]
    exact fun heq => hd (Option.some.inj heq).symm
  · rw [h]
    exact nofun

theorem Ahead.any_head? {cs post : List Char} (h : Ahead cs post) {p : Char → Bool}
    (hp : p '$' = false) (hcs : cs.head?.any p = false) : post.head?.any p = false := by
  rcases h with h | h | h
  · rw [h, hcs]
  · rw [h]
    exact hp
  · rw [h]
    rfl

/-- The lexeme, which starts with `c`, is found again before this text. -/
def Again (before : Option Char) (c : Char) (l : Lexeme) (post : List Char) : Prop :=
  ∃ tail, l.text = c :: tail ∧ next before c (tail ++ post) = (l, post)

variable {before : Option Char} {c : Char} {rest post others : List Char} {l : Lexeme}

theorem again_of_ofSpan {opening rest : List Char} {f : List Char → Span}
    (h : ofSpan (c :: opening) (f rest) = (l, others))
    (htaken : (f rest).taken ++ (f rest).rest = rest)
    (hdetached : Span.Detached f (f rest) post)
    (hend : others = [] → post = [])
    (hnext : ∀ cs, next before c (opening ++ cs) = ofSpan (c :: opening) (f cs)) :
    Again before c l post := by
  obtain ⟨rfl, rfl⟩ := Prod.mk.inj h
  refine ⟨opening ++ (f rest).taken, rfl, ?_⟩
  rw [List.append_assoc, hnext]
  rcases hdetached with ⟨hclosed, hsame⟩ | ⟨-, hrest⟩
  · rw [hsame, hclosed]
    rfl
  · rw [hrest, List.append_nil] at htaken
    rw [hend hrest, List.append_nil, htaken, ofSpan, hrest, htaken]

theorem next_dollar (before : Option Char) (rest : List Char) :
    next before '$' rest =
      match dollarTag? rest with
      | some (tag, body) =>
        ofSpan ('$' :: (tag ++ ['$'])) (dollarBody ('$' :: (tag ++ ['$'])) body)
      | none => (plain '$', rest) := rfl

theorem again_dollar (h : next before '$' rest = (l, others)) (hend : others = [] → post = [])
    (hdollar : l = plain '$' → dollarTag? post = none) : Again before '$' l post := by
  rw [next_dollar] at h
  cases htag : dollarTag? rest with
  | none =>
    rw [htag] at h
    obtain ⟨rfl, rfl⟩ := Prod.mk.inj h
    refine ⟨[], rfl, ?_⟩
    rw [List.nil_append, next_dollar, hdollar rfl]
  | some found =>
    obtain ⟨tag, body⟩ := found
    rw [htag] at h
    obtain ⟨-, hnames, hdigit⟩ := dollarTag?_eq_some_iff.mp htag
    refine again_of_ofSpan h (dollarBody_taken _ _)
      (detached_dollarBody (List.cons_ne_nil _ _) _ _) hend ?_
    intro cs
    have hagain : dollarTag? (tag ++ ['$'] ++ cs) = some (tag, cs) := by
      rw [dollarTag?_eq_some_iff, List.append_assoc]
      exact ⟨rfl, hnames, hdigit⟩
    rw [next_dollar, hagain]

theorem again_sigil (hsigil : c = '@' ∨ c = ':') (h : next before c rest = (l, others))
    (hname : ∀ sigil name, l ≠ placeholder sigil name) (hahead : Ahead others post) :
    Again before c l post := by
  rw [next_sigil hsigil] at h
  split at h
  · obtain ⟨rfl, -⟩ := Prod.mk.inj h
    exact absurd rfl (hname c _)
  · next hcloses =>
    obtain ⟨rfl, rfl⟩ := Prod.mk.inj h
    refine ⟨[], rfl, ?_⟩
    have hpost : ¬ (!attaches before && post.head?.any isNameStart) = true := by
      intro hopens
      obtain ⟨hbefore, hhead⟩ := Bool.and_eq_true_iff.mp hopens
      have hrest : rest.head?.any isNameStart = false := by
        cases hany : rest.head?.any isNameStart with
        | false => rfl
        | true => exact absurd (Bool.and_eq_true_iff.mpr ⟨hbefore, hany⟩) hcloses
      rw [hahead.any_head? (by decide) hrest] at hhead
      cases hhead
    rw [List.nil_append, next_sigil hsigil, if_neg hpost]

/-- A lexeme that is no separator and no placeholder is found again before a text that looks like the
one that follows it, if a dollar does not open a dollar quote there. -/
theorem next_again (h : next before c rest = (l, others)) (hcut : l ≠ separator)
    (hname : ∀ sigil name, l ≠ placeholder sigil name) (hahead : Ahead others post)
    (hend : others = [] → post = []) (hdollar : l = plain '$' → dollarTag? post = none) :
    Again before c l post := by
  by_cases hquote : c = '\'' ∨ c = '"'
  · have hnext : ∀ cs, next before c cs = ofSpan [c] (quoted c cs) := by
      intro cs
      rcases hquote with rfl | rfl
      · rfl
      · rfl
    have hne : c ≠ '$' := by
      rcases hquote with rfl | rfl
      · decide
      · decide
    rw [hnext] at h
    have hothers : (quoted c rest).rest = others := (Prod.mk.inj h).2
    have hpost : post.head? ≠ some c := hahead.head?_ne hne (hothers ▸ head?_quoted c rest)
    exact again_of_ofSpan h (quoted_taken c rest) (detached_quoted hpost rest) hend hnext
  obtain ⟨hsingle, hdouble⟩ := not_or.mp hquote
  by_cases hdollar' : c = '$'
  · subst hdollar'
    exact again_dollar h hend hdollar
  by_cases hsigil : c = '@' ∨ c = ':'
  · exact again_sigil hsigil h hname hahead
  by_cases hsemicolon : c = ';'
  · subst hsemicolon
    rw [next_semicolon] at h
    exact absurd (Prod.mk.inj h).1.symm hcut
  -- What is left are the two openings of comments and the plain characters.
  by_cases hline : c = '-' ∧ rest.head? = some '-'
  · obtain ⟨rfl, hhead⟩ := hline
    obtain ⟨rest, rfl⟩ := List.head?_eq_some_iff.mp hhead
    exact again_of_ofSpan h (lineComment_taken rest) (detached_lineComment rest post) hend
      fun _ => rfl
  by_cases hblock : c = '/' ∧ rest.head? = some '*'
  · obtain ⟨rfl, hhead⟩ := hblock
    obtain ⟨rest, rfl⟩ := List.head?_eq_some_iff.mp hhead
    exact again_of_ofSpan h (blockComment_taken 0 rest) (detached_blockComment 0 rest post) hend
      fun _ => rfl
  have hplain : ∀ cs, (c = '-' → cs.head? ≠ some '-') → (c = '/' → cs.head? ≠ some '*') →
      next before c cs = (plain c, cs) := by
    intro cs hline hblock
    refine next_plain hsingle hdouble hdollar' hsemicolon ?_ ?_ hsigil
    · exact fun tail hc htail => hline hc (htail ▸ rfl)
    · exact fun tail hc htail => hblock hc (htail ▸ rfl)
  rw [hplain rest (fun hc hhead => hline ⟨hc, hhead⟩) fun hc hhead => hblock ⟨hc, hhead⟩] at h
  obtain ⟨rfl, rfl⟩ := Prod.mk.inj h
  refine ⟨[], rfl, hplain post ?_ ?_⟩
  · exact fun hc => hahead.head?_ne (by decide) fun hhead => hline ⟨hc, hhead⟩
  · exact fun hc => hahead.head?_ne (by decide) fun hhead => hblock ⟨hc, hhead⟩

/-! ## Numbered lexemes -/

/-- The lexemes of a marker are its characters, and every other lexeme stays. -/
def relexed (names : List (List Char)) : Lexeme → List Lexeme
  | .placeholder _ name => (argument (names.idxOf name + 1)).map .plain
  | l => [l]

variable {names : List (List Char)} {cs : List Char} {ls more : List Lexeme}

theorem renderWith_of_ne (hname : ∀ sigil name, l ≠ placeholder sigil name) :
    l.renderWith names = l.text := by
  cases l with
  | placeholder sigil name => exact absurd rfl (hname sigil name)
  | verbatim _ _ | separator | plain _ => rfl

theorem relexed_of_ne (hname : ∀ sigil name, l ≠ placeholder sigil name) :
    l.relexed names = [l] := by
  cases l with
  | placeholder sigil name => exact absurd rfl (hname sigil name)
  | verbatim _ _ | separator | plain _ => rfl

/-- The first of some lexemes, and what it is made from. -/
theorem next_of_scan (h : scan before cs = l :: ls) :
    ∃ c rest others, cs = c :: rest ∧ next before c rest = (l, others) ∧
      scan l.text.getLast? others = ls := by
  cases cs with
  | nil =>
    rw [scan_nil] at h
    cases h
  | cons c rest =>
    rw [scan_cons] at h
    obtain ⟨hl, hls⟩ := List.cons.inj h
    rw [hl] at hls
    exact ⟨c, rest, _, rfl, Prod.ext hl rfl, hls⟩

theorem text_of_next (h : next before c rest = (l, others)) :
    ∃ tail, l.text = c :: tail ∧ rest = tail ++ others := by
  have htext := text_next before c rest
  have hne := text_next_ne_nil before c rest
  rw [h] at htext hne
  obtain ⟨d, tail, hl⟩ := List.exists_cons_of_ne_nil hne
  rw [hl, List.cons_append] at htext
  obtain ⟨rfl, rfl⟩ := List.cons.inj htext
  exact ⟨tail, hl, rfl⟩

theorem ahead_numbered (h : scan before cs = ls ++ more) :
    Ahead cs (ls.flatMap (renderWith names)) := by
  cases ls with
  | nil => exact .inr (.inr rfl)
  | cons l ls =>
    by_cases hname : ∃ sigil name, l = placeholder sigil name
    · obtain ⟨sigil, name, rfl⟩ := hname
      exact .inr (.inl rfl)
    · have hl : l.renderWith names = l.text :=
        renderWith_of_ne fun sigil name heq => hname ⟨sigil, name, heq⟩
      obtain ⟨c, rest, others, rfl, hnext, -⟩ := next_of_scan h
      obtain ⟨tail, htext, -⟩ := text_of_next hnext
      rw [List.flatMap_cons, hl, htext]
      exact .inl rfl

/-- The numbered text begins with a lexeme of the text, if that one is no placeholder. -/
theorem first_of_numbered {d : Char} (h : scan before cs = ls ++ more)
    (hfirst : attaches before = true ∨ ∀ sigil name, ls.head? ≠ some (placeholder sigil name))
    (hnumbered : ls.flatMap (renderWith names) = d :: post) :
    ∃ l ls' rest others, ls = l :: ls' ∧ cs = d :: rest ∧ next before d rest = (l, others) ∧
      scan l.text.getLast? others = ls' ++ more ∧
      l.text ++ ls'.flatMap (renderWith names) = d :: post := by
  cases ls with
  | nil => cases hnumbered
  | cons l ls =>
    obtain ⟨c, rest, others, rfl, hnext, hscan⟩ := next_of_scan h
    obtain ⟨tail, htext, -⟩ := text_of_next hnext
    have hname : ∀ sigil name, l ≠ placeholder sigil name := by
      intro sigil name hl
      rcases hfirst with hattaches | hfirst
      · have hplaceholder : placeholder sigil name = (next before c rest).1 := by rw [hnext, hl]
        obtain ⟨-, -, hopens, -⟩ := placeholder_of_next hplaceholder
        rw [hattaches] at hopens
        cases hopens
      · exact hfirst sigil name (congrArg some hl)
    rw [List.flatMap_cons, renderWith_of_ne hname] at hnumbered
    have hhead : c = d := by
      rw [htext] at hnumbered
      exact (List.cons.inj hnumbered).1
    subst hhead
    exact ⟨l, ls, rest, others, rfl, rfl, hnext, hscan, hnumbered⟩

theorem attaches_name {d : Char} (hd : isNameChar d = true) : attaches (some d) = true := by
  simp only [attaches, Option.any_some, hd, Bool.true_or]

/-- A tag in front of a dollar was there before the numbering. -/
theorem tag_of_numbered (h : scan before cs = ls ++ more) {tag body : List Char}
    (htag : ∀ d ∈ tag, isNameChar d = true)
    (hfirst : attaches before = true ∨ ∀ sigil name, ls.head? ≠ some (placeholder sigil name))
    (hnumbered : ls.flatMap (renderWith names) = tag ++ '$' :: body) :
    ∃ body', cs = tag ++ '$' :: body' := by
  induction tag generalizing before cs ls with
  | nil =>
    obtain ⟨l, ls', rest, others, rfl, rfl, -⟩ := first_of_numbered h hfirst hnumbered
    exact ⟨rest, rfl⟩
  | cons d tag ih =>
    obtain ⟨l, ls', rest, others, rfl, rfl, hnext, hscan, htail⟩ :=
      first_of_numbered h hfirst hnumbered
    have hd : isNameChar d = true := htag d List.mem_cons_self
    have hspecial : d ∉ specialChars := not_mem_specialChars (by decide) hd
    rw [next_of_not_special hspecial] at hnext
    obtain ⟨rfl, rfl⟩ := Prod.mk.inj hnext
    obtain ⟨body', rfl⟩ := ih hscan (fun e he => htag e (List.mem_cons_of_mem d he))
      (.inl (attaches_name hd)) (List.cons.inj htail).2
    exact ⟨body', rfl⟩

theorem dollarTag?_numbered (h : scan (some '$') cs = ls ++ more)
    (hfirst : ∀ sigil name, ls.head? ≠ some (placeholder sigil name))
    (hnone : dollarTag? cs = none) : dollarTag? (ls.flatMap (renderWith names)) = none := by
  cases hfound : dollarTag? (ls.flatMap (renderWith names)) with
  | none => rfl
  | some found =>
    obtain ⟨hnumbered, htag, hdigit⟩ := dollarTag?_eq_some_iff.mp hfound
    obtain ⟨body, hcs⟩ := tag_of_numbered h htag (.inr hfirst) hnumbered
    rw [dollarTag?_eq_some_iff.mpr ⟨hcs, htag, hdigit⟩] at hnone
    cases hnone

theorem dollarTag?_of_plain (h : next before c rest = (plain '$', others)) :
    dollarTag? others = none := by
  obtain ⟨tail, htext, -⟩ := text_of_next h
  obtain rfl : '$' = c := (List.cons.inj htext).1
  rw [next_dollar] at h
  cases hrest : dollarTag? rest with
  | none =>
    rw [hrest] at h
    rw [← (Prod.mk.inj h).2, hrest]
  | some found =>
    rw [hrest] at h
    cases h

theorem takeWhile_name_ne_nil (h : cs.head?.any isNameStart = true) :
    cs.takeWhile isNameChar ≠ [] := by
  cases cs with
  | nil => cases h
  | cons c cs =>
    have hstart : isNameStart c = true := h
    have hname : isNameChar c = true := by
      simp only [isNameStart, isNameChar, Char.isAlphanum, Bool.or_eq_true] at hstart ⊢
      exact hstart.imp .inl id
    rw [List.takeWhile_cons_of_pos hname]
    exact List.cons_ne_nil _ _

/-- A name attaches a sigil behind it. -/
theorem attaches_names {ds : List Char} (hds : ∀ d ∈ ds, isNameChar d = true) (hne : ds ≠ []) :
    attaches ds.getLast? = true := by
  rw [List.getLast?_eq_some_getLast hne]
  exact attaches_name (hds _ (List.getLast_mem hne))

/-- A marker is read as plain characters, and it attaches a sigil behind it. -/
theorem scan_argument (n : Nat) (before : Option Char) (cs : List Char) :
    ∃ last, attaches last = true ∧
      scan before (argument n ++ cs) = (argument n).map plain ++ scan last cs := by
  have hdigits : ∀ d ∈ Nat.toDigits 10 n, d.isDigit = true := fun d hd =>
    Nat.isDigit_of_mem_toDigits (by decide) (by decide) hd
  have hnames : ∀ d ∈ Nat.toDigits 10 n, isNameChar d = true := by
    intro d hd
    rw [isNameChar, Char.isAlphanum, hdigits d hd, Bool.or_true, Bool.true_or]
  have hne : Nat.toDigits 10 n ≠ [] := Nat.toDigits_ne_nil
  have hnone : dollarTag? (Nat.toDigits 10 n ++ cs) = none := by
    obtain ⟨d, ds, hds⟩ := List.exists_cons_of_ne_nil hne
    have hd : d.isDigit = true := hdigits d (hds ▸ List.mem_cons_self)
    rw [hds, List.cons_append, dollarTag?, List.head?_cons, Option.any_some, if_pos hd]
  refine ⟨(Nat.toDigits 10 n).getLast?, attaches_names hnames hne, ?_⟩
  show scan before ('$' :: (Nat.toDigits 10 n ++ cs)) = _
  rw [scan_cons, next_dollar, hnone]
  show plain '$' :: scan (some '$') (Nat.toDigits 10 n ++ cs) = _
  rw [scan_names hnames, List.getLast?_eq_some_getLast hne, Option.some_or]
  rfl

/-- No placeholder stands directly behind a dollar that opens nothing. -/
def Apart (ls : List Lexeme) : Prop := ls.IsChain fun l m => l = plain '$' → m.name? = none

instance : DecidablePred Apart := fun ls =>
  inferInstanceAs (Decidable (ls.IsChain fun l m => l = plain '$' → m.name? = none))

theorem Apart.tail (h : Apart (l :: ls)) : Apart ls := List.IsChain.tail h

theorem Apart.head? (h : Apart (plain '$' :: ls)) (sigil : Char) (name : List Char) :
    ls.head? ≠ some (placeholder sigil name) := by
  intro hhead
  obtain ⟨ls, rfl⟩ := List.head?_eq_some_iff.mp hhead
  have hnone := (List.isChain_cons_cons.mp h).1 rfl
  cases hnone

/-- Numbered text is read again as the lexemes it was before, with plain characters for markers. -/
theorem scan_numbered {earlier : Option Char} (h : scan before cs = ls ++ more)
    (hcut : separator ∉ ls) (hapart : Apart ls) (hbefore : attaches earlier = attaches before) :
    scan earlier (ls.flatMap (renderWith names)) = ls.flatMap (relexed names) := by
  induction ls generalizing before earlier cs with
  | nil => exact scan_nil earlier
  | cons l ls ih =>
    obtain ⟨c, rest, others, rfl, hnext, hscan⟩ := next_of_scan h
    rw [List.mem_cons, not_or] at hcut
    rw [List.flatMap_cons, List.flatMap_cons]
    by_cases hname : ∃ sigil name, l = placeholder sigil name
    · obtain ⟨sigil, name, rfl⟩ := hname
      have hplaceholder : placeholder sigil name = (next before c rest).1 := by rw [hnext]
      obtain ⟨-, -, hopens, hnames⟩ := placeholder_of_next hplaceholder
      have hall : ∀ d ∈ name, isNameChar d = true := by
        rw [hnames]
        exact fun d hd => List.mem_takeWhile_imp hd
      have hne : name ≠ [] := hnames ▸ takeWhile_name_ne_nil (Bool.and_eq_true_iff.mp hopens).2
      have hattaches : attaches (placeholder sigil name).text.getLast? = true := by
        show attaches (sigil :: name).getLast? = true
        rw [List.getLast?_cons, List.getLast?_eq_some_getLast hne]
        exact attaches_name (hall _ (List.getLast_mem hne))
      obtain ⟨last, hlast, hargument⟩ := scan_argument (names.idxOf name + 1) earlier
        (ls.flatMap (renderWith names))
      rw [renderWith, hargument, ih hscan hcut.2 hapart.tail (hlast.trans hattaches.symm),
        relexed]
    · have hname : ∀ sigil name, l ≠ placeholder sigil name :=
        fun sigil name heq => hname ⟨sigil, name, heq⟩
      have hend : others = [] → ls.flatMap (renderWith names) = [] := by
        intro hothers
        rw [hothers, scan_nil] at hscan
        rw [(List.append_eq_nil_iff.mp hscan.symm).1]
        rfl
      have hdollar : l = plain '$' → dollarTag? (ls.flatMap (renderWith names)) = none := by
        intro hl
        subst hl
        exact dollarTag?_numbered hscan hapart.head? (dollarTag?_of_plain hnext)
      obtain ⟨tail, htext, hagain⟩ :=
        next_again hnext (Ne.symm hcut.1) hname (ahead_numbered hscan) hend hdollar
      rw [renderWith_of_ne hname, relexed_of_ne hname, htext, List.cons_append, scan_cons,
        next_congr hbefore, hagain, ih hscan hcut.2 hapart.tail rfl]
      rfl

/-! ## What is neither cut nor numbered -/

/-- The lexeme is the same in every statement. -/
def Inert (l : Lexeme) : Prop := l ≠ separator ∧ ∀ sigil name, l ≠ placeholder sigil name

theorem inert_plain (c : Char) : Inert (plain c) := ⟨nofun, fun _ _ => nofun⟩

theorem inert_relexed (hcut : separator ∉ ls) : ∀ m ∈ ls.flatMap (relexed names), Inert m := by
  intro m hm
  obtain ⟨l, hl, hm⟩ := List.mem_flatMap.mp hm
  cases l with
  | separator => exact absurd hl hcut
  | placeholder sigil name =>
    obtain ⟨c, -, rfl⟩ := List.mem_map.mp hm
    exact inert_plain c
  | verbatim text closed =>
    obtain rfl := List.mem_singleton.mp hm
    exact ⟨nofun, fun _ _ => nofun⟩
  | plain c =>
    obtain rfl := List.mem_singleton.mp hm
    exact inert_plain c

/-- A placeholder that is cut off is one in the whole text. -/
theorem inert_of_cut {x y : List Char} (h : Inert (next before c (x ++ y)).1) :
    Inert (next before c x).1 := by
  refine ⟨ne_separator_of_cut h.1, fun sigil name heq => ?_⟩
  obtain ⟨-, hsigil, hopens, -⟩ := placeholder_of_next heq.symm
  have hne : x ≠ [] := by
    rintro rfl
    exact absurd (Bool.and_eq_true_iff.mp hopens).2 Bool.false_ne_true
  have hhead : (x ++ y).head? = x.head? := List.head?_append_of_ne_nil x hne
  have hwhole := @next_sigil before c hsigil (x ++ y)
  rw [hhead, if_pos hopens] at hwhole
  exact h.2 _ _ (congrArg Prod.fst hwhole)

theorem placeholderNames_of_inert (h : ∀ l ∈ ls, Inert l) : placeholderNames ls = [] := by
  have hnone : ls.filterMap name? = [] := by
    refine List.filterMap_eq_nil_iff.mpr fun l hl => ?_
    cases l with
    | placeholder sigil name => exact absurd rfl ((h _ hl).2 sigil name)
    | verbatim _ _ | separator | plain _ => rfl
  rw [placeholderNames, hnone]
  rfl

theorem numberedText_of_inert (h : ∀ l ∈ ls, Inert l) : numberedText ls = segmentText ls := by
  unfold numberedText segmentText
  rw [List.flatMap_def, List.flatMap_def]
  exact congrArg List.flatten (List.map_congr_left fun l hl => renderWith_of_ne (h l hl).2)

/-- A segment with nothing in it to number has the same statement with and without numbers. -/
theorem ofSegment?_of_inert (h : ∀ l ∈ ls, Inert l) (numbered : Bool) :
    ofSegment? numbered ls =
      if (Text.trimBlanks (segmentText ls)).isEmpty then none
      else some ⟨String.ofList (Text.trimBlanks (segmentText ls)), []⟩ := by
  cases numbered with
  | false => rfl
  | true =>
    simp only [ofSegment?, if_true, numberedText_of_inert h, placeholderNames_of_inert h,
      List.map_nil]

end Lexeme

/-! ## Numbered statements -/

/-- The text of a numbered statement has nothing in it to cut or to number. -/
theorem inert_of_trim {cs : List Char} {before after : List (List Lexeme)} {segment : List Lexeme}
    (h : segments (Lexeme.scan none cs) = before ++ segment :: after)
    (hapart : Lexeme.Apart segment) :
    ∀ l ∈ Lexeme.scan none (Text.trimBlanks (numberedText segment)), l.Inert := by
  obtain ⟨hcut, more, hscan, -⟩ := segments_eq_append h
  have hnumbered : Lexeme.scan none (numberedText segment) =
      segment.flatMap (Lexeme.relexed (placeholderNames segment)) :=
    Lexeme.scan_numbered (Lexeme.scan_suffix hscan).symm hcut hapart (attaches_closed before).symm
  have hinert := @Lexeme.inert_relexed (placeholderNames segment) segment hcut
  rw [← hnumbered] at hinert
  have htext := (Text.leading_trimEnds_trailing Text.isBlank (numberedText segment)).symm
  rw [← Text.trimBlanks_eq] at htext
  have hwhole : Lexeme.scan none (Text.leading Text.isBlank (numberedText segment) ++
      Text.trimBlanks (numberedText segment) ++ Text.trailing Text.isBlank (numberedText segment)) =
      Lexeme.scan none (numberedText segment) ++ [] := by
    rw [← htext, List.append_nil]
  have hshort : (Text.leading Text.isBlank (numberedText segment) ++
      Text.trimBlanks (numberedText segment)).length ≤
      (segmentText (Lexeme.scan none (numberedText segment))).length := by
    have hlength := congrArg List.length htext
    rw [List.length_append] at hlength
    rw [segmentText_scan]
    omega
  have hall := Lexeme.forall_of_cut (fun c _ => Lexeme.inert_plain c) Lexeme.inert_of_cut hwhole
    hinert hshort
  rw [Lexeme.scan_blanks rfl fun c hc => Text.of_mem_leading hc] at hall
  exact fun l hl => hall l (List.mem_append_right _ hl)

/-- A numbered statement is one statement when it is read again, and nothing in it is numbered, if no
placeholder of its segment stands directly behind a dollar that opens nothing. -/
theorem split_again {sql : String} {segment : List Lexeme}
    (hsegment : segment ∈ segments (Lexeme.scan none sql.toList)) (hapart : Lexeme.Apart segment)
    {s : Statement} (hs : ofSegment? true segment = some s) :
    s ∈ split true sql ∧ split true s.sql = [⟨s.sql, []⟩] := by
  refine ⟨List.mem_filterMap.mpr ⟨segment, hsegment, hs⟩, ?_⟩
  obtain ⟨before, after, hsegments⟩ := List.append_of_mem hsegment
  have hinert := inert_of_trim hsegments hapart
  have hnone : Lexeme.separator ∉ Lexeme.scan none (Text.trimBlanks (numberedText segment)) :=
    fun hin => (hinert _ hin).1 rfl
  have hstatement : ofSegment? true segment =
      if (Text.trimBlanks (numberedText segment)).isEmpty then none
      else some ⟨String.ofList (Text.trimBlanks (numberedText segment)),
        (placeholderNames segment).map String.ofList⟩ := rfl
  rw [hstatement] at hs
  cases hempty : (Text.trimBlanks (numberedText segment)).isEmpty with
  | true =>
    rw [hempty] at hs
    cases hs
  | false =>
    rw [hempty] at hs
    obtain rfl := (Option.some.inj hs).symm
    have hagain : ofSegment? true (Lexeme.scan none (Text.trimBlanks (numberedText segment))) =
        some ⟨String.ofList (Text.trimBlanks (numberedText segment)), []⟩ := by
      simp only [ofSegment?, if_true, Lexeme.numberedText_of_inert hinert,
        Lexeme.placeholderNames_of_inert hinert, segmentText_scan, Text.trimBlanks_trimBlanks,
        hempty, Bool.false_eq_true, if_false, List.map_nil]
    unfold split
    rw [String.toList_ofList, segments_of_no_separator hnone, List.filterMap_cons,
      List.filterMap_nil, hagain]

theorem split_again_cast :
    ∃ segment ∈ segments (Lexeme.scan none "SELECT $9, @a::int; SELECT '@b', :b$x$;$x$".toList),
      Lexeme.Apart segment ∧
      ofSegment? true segment = some ⟨"SELECT '@b', $1$x$;$x$", ["b"]⟩ ∧
      split true "SELECT '@b', $1$x$;$x$" = [⟨"SELECT '@b', $1$x$;$x$", []⟩] := by
  have hsegment : Lexeme.scan none " SELECT '@b', :b$x$;$x$".toList ∈
      segments (Lexeme.scan none "SELECT $9, @a::int; SELECT '@b', :b$x$;$x$".toList) := by
    decide +kernel
  have hapart : Lexeme.Apart (Lexeme.scan none " SELECT '@b', :b$x$;$x$".toList) := by
    decide +kernel
  have hstatement : ofSegment? true (Lexeme.scan none " SELECT '@b', :b$x$;$x$".toList) =
      some ⟨"SELECT '@b', $1$x$;$x$", ["b"]⟩ := by
    decide +kernel
  exact ⟨_, hsegment, hapart, hstatement, (split_again hsegment hapart hstatement).2⟩

/-- A dollar and the marker behind it open a dollar quote, and the semicolon in the next one cuts. -/
theorem not_all_split_again :
    ¬ ∀ sql : String, ∀ s ∈ split true sql, split true s.sql = [⟨s.sql, []⟩] := by
  intro hall
  have hsplit : split true "SELECT x$@a, $$;$$" = [⟨"SELECT x$$1, $$;$$", ["a"]⟩] := by
    decide +kernel
  have hagain : split true "SELECT x$$1, $$;$$" = [⟨"SELECT x$$1, $$", []⟩, ⟨"$$", []⟩] := by
    decide +kernel
  have hone := hall "SELECT x$@a, $$;$$" _ (hsplit ▸ List.mem_singleton_self _)
  rw [hagain] at hone
  exact absurd (congrArg List.length hone) (by decide)

end Statement
end SqlSession
