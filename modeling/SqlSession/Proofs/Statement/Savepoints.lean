import SqlSession.Proofs.Statement.Joined
import SqlSession.Proofs.Statement.Renumbered
import SqlSession.Proofs.Transaction.Savepoint

/-!
# Statements about savepoints before other text

A statement about a savepoint is cut off at the semicolon behind it, whatever its name and the other
text are, as long as the name does not open a dollar quote that it leaves open
(`split_savepoint_iff`).  A plain name can do that: there can be dollars in it, and two of them make
the mark of a dollar quote for the scanner, though a word cannot be quoted from its middle
(`not_all_savepoints_split`).
-/

namespace SqlSession
namespace Statement

open Text

/-! ## Dollar quotes -/

/-- The mark at both ends of a dollar quote with this tag. -/
def tagMark (tag : List Char) : List Char := '$' :: (tag ++ ['$'])

/-- The characters can stand between the dollars of a mark. -/
def TagName (tag : List Char) : Prop :=
  (∀ c ∈ tag, isNameChar c = true) ∧ tag.head?.any Char.isDigit = false

/-- A text, read from left to right, in which every dollar quote that is opened is closed, by the first
mark that is the same. -/
inductive DollarsClosed : List Char → Prop
  | nil : DollarsClosed []
  | other {c : Char} {rest : List Char}
      (opensNone : ∀ tag, TagName tag → ¬ tagMark tag <+: c :: rest)
      (others : DollarsClosed rest) : DollarsClosed (c :: rest)
  | closed {tag body rest : List Char} (tagName : TagName tag)
      (first : ¬ tagMark tag <:+: body ++ (tagMark tag).dropLast)
      (others : DollarsClosed rest) :
      DollarsClosed (tagMark tag ++ (body ++ (tagMark tag ++ rest)))

theorem subset_closed (tag body rest : List Char) :
    rest ⊆ tagMark tag ++ (body ++ (tagMark tag ++ rest)) := by
  intro c hc
  exact List.mem_append_right _ (List.mem_append_right _ (List.mem_append_right _ hc))

theorem tagMark_ne_nil (tag : List Char) : tagMark tag ≠ [] := List.cons_ne_nil _ _

theorem semicolon_not_mem_tagMark {tag : List Char} (h : TagName tag) : ';' ∉ tagMark tag := by
  intro hmem
  rcases List.mem_cons.mp hmem with heq | hmem
  · exact absurd heq (by decide)
  · rcases List.mem_append.mp hmem with hmem | hmem
    · exact absurd (h.1 _ hmem) (by decide)
    · exact absurd (List.mem_singleton.mp hmem) (by decide)

theorem dollarTag?_tagMark {tag : List Char} (h : TagName tag) (body : List Char) :
    dollarTag? (tag ++ '$' :: body) = some (tag, body) :=
  dollarTag?_eq_some_iff.mpr ⟨rfl, h.1, h.2⟩

/-- A dollar that opens nothing before the end of the text opens nothing before a semicolon. -/
theorem dollarTag?_before {rest : List Char}
    (h : ∀ tag, TagName tag → ¬ tagMark tag <+: '$' :: rest) (post : List Char) :
    dollarTag? (rest ++ ';' :: post) = none := by
  cases hfound : dollarTag? (rest ++ ';' :: post) with
  | none => rfl
  | some found =>
    obtain ⟨tag, body⟩ := found
    obtain ⟨hrest, hname, hdigit⟩ := dollarTag?_eq_some_iff.mp hfound
    have hprefix : tagMark tag <+: ('$' :: rest) ++ ';' :: post :=
      ⟨body, by rw [List.cons_append, hrest, tagMark]; simp⟩
    have htag : TagName tag := ⟨hname, hdigit⟩
    exact absurd ((prefix_before (semicolon_not_mem_tagMark htag)).mp hprefix) (h tag htag)

/-! ## Bodies -/

variable {closer : List Char}

theorem prefix_append_dropLast (body closer rest : List Char) :
    body ++ closer.dropLast <+: body ++ (closer ++ rest) := by
  have hlast : closer.dropLast <+: closer := List.dropLast_prefix closer
  exact (List.prefix_append_right_inj body).mpr (hlast.trans (List.prefix_append closer rest))

/-- A body ends with the first closer. -/
theorem dollarBody_first (hne : closer ≠ []) {body : List Char}
    (h : ¬ closer <:+: body ++ closer.dropLast) (rest : List Char) :
    dollarBody closer (body ++ (closer ++ rest)) = ⟨body ++ closer, true, rest⟩ := by
  induction body with
  | nil =>
    obtain ⟨d, tail, rfl⟩ := List.exists_cons_of_ne_nil hne
    have hprefix : (d :: tail).isPrefixOf (d :: (tail ++ rest)) = true :=
      List.isPrefixOf_iff_prefix.mpr (List.prefix_append (d :: tail) rest)
    show dollarBody (d :: tail) (d :: (tail ++ rest)) = _
    rw [dollarBody, if_pos hprefix, ← List.cons_append, List.drop_left]
    rfl
  | cons c body ih =>
    rw [List.cons_append, List.infix_cons_iff, not_or] at h
    have hneg : ¬ closer.isPrefixOf (c :: (body ++ (closer ++ rest))) = true := by
      intro hprefix
      rw [List.isPrefixOf_iff_prefix] at hprefix
      -- The closer would end before the last character of the one behind the body.
      have hshort := prefix_append_dropLast (c :: body) closer rest
      refine h.1 (List.prefix_of_prefix_length_le hprefix hshort ?_)
      rw [List.length_cons, List.length_append, List.length_dropLast]
      omega
    rw [List.cons_append, dollarBody, if_neg hneg, ih h.2]
    rfl

theorem dollarBody_none {cs : List Char} (h : ¬ closer <:+: cs) :
    dollarBody closer cs = ⟨cs, false, []⟩ := by
  induction cs with
  | nil => rfl
  | cons c cs ih =>
    rw [List.infix_cons_iff, not_or] at h
    rw [dollarBody, if_neg fun hprefix => h.1 (List.isPrefixOf_iff_prefix.mp hprefix), ih h.2]
    rfl

/-- What has the closer in it has a first one. -/
theorem exists_first (hne : closer ≠ []) {cs : List Char} (h : closer <:+: cs) :
    ∃ body rest, cs = body ++ (closer ++ rest) ∧ ¬ closer <:+: body ++ closer.dropLast := by
  induction cs with
  | nil => exact absurd (List.infix_nil.mp h) hne
  | cons c cs ih =>
    by_cases hprefix : closer <+: c :: cs
    · obtain ⟨rest, hrest⟩ := hprefix
      refine ⟨[], rest, hrest.symm, fun hin => ?_⟩
      have hlength := hin.length_le
      have hpos := List.length_pos_iff.mpr hne
      rw [List.nil_append, List.length_dropLast] at hlength
      omega
    · obtain ⟨body, rest, rfl, hfirst⟩ := ih ((List.infix_cons_iff.mp h).resolve_left hprefix)
      refine ⟨c :: body, rest, rfl, fun hin => ?_⟩
      rcases List.infix_cons_iff.mp hin with hstart | hin
      · exact hprefix (hstart.trans (prefix_append_dropLast (c :: body) closer rest))
      · exact hfirst hin

/-- A mark that is not in a text is not in it with a semicolon behind it either. -/
theorem not_infix_before {cs : List Char} (hne : closer ≠ []) (hsemicolon : ';' ∉ closer)
    (h : ¬ closer <:+: cs) : ¬ closer <:+: cs ++ [';'] := by
  intro hin
  rcases List.infix_concat_iff.mp hin with hsuffix | hin
  · rcases List.suffix_concat_iff.mp hsuffix with hnil | ⟨front, rfl, -⟩
    · exact hne hnil
    · exact hsemicolon (List.mem_append_right _ List.mem_cons_self)
  · exact h hin

/-! ## Scanning words -/

namespace Lexeme

variable {before : Option Char} {c : Char} {cs rest : List Char}

/-- Text behind a semicolon is scanned like a text of its own. -/
theorem scan_semicolon (before : Option Char) (post : List Char) :
    scan before (';' :: post) = separator :: scan none post := by
  have hbehind : attaches (some ';') = attaches none := by decide
  rw [scan_cons, next_semicolon]
  exact congrArg (separator :: ·) (scan_congr hbehind post)

/-- A character of a word, or of its dollars if they open nothing, is a lexeme of its own. -/
theorem next_word_before (hc : c ∈ specialChars → c = '$')
    (hopens : ∀ tag, TagName tag → ¬ tagMark tag <+: c :: rest) (before : Option Char)
    (post : List Char) :
    next before c (rest ++ ';' :: post) = (plain c, rest ++ ';' :: post) := by
  by_cases hdollar : c = '$'
  · subst hdollar
    rw [next_dollar, dollarTag?_before hopens]
  · exact next_of_not_special (fun hspecial => hdollar (hc hspecial)) before _

theorem next_tagMark {tag : List Char} (htag : TagName tag) (before : Option Char)
    (body : List Char) :
    next before '$' (tag ++ '$' :: body) =
      ofSpan (tagMark tag) (dollarBody (tagMark tag) body) := by
  rw [next_dollar, dollarTag?_tagMark htag]
  rfl

theorem tagMark_append (tag body : List Char) :
    tagMark tag ++ body = '$' :: (tag ++ '$' :: body) := by
  rw [tagMark, List.cons_append, List.append_assoc]
  rfl

theorem inert_verbatim (cs : List Char) (isClosed : Bool) : Inert (verbatim cs isClosed) :=
  ⟨nofun, fun _ _ => nofun⟩

theorem inert_map_plain (cs : List Char) : ∀ l ∈ cs.map plain, Inert l := by
  intro l hl
  obtain ⟨c, -, rfl⟩ := List.mem_map.mp hl
  exact inert_plain c

/-- A dollar quote that is closed is one lexeme. -/
theorem scan_closed {tag body : List Char} (htag : TagName tag)
    (hfirst : ¬ tagMark tag <:+: body ++ (tagMark tag).dropLast) (before : Option Char)
    (rest : List Char) :
    scan before (tagMark tag ++ (body ++ (tagMark tag ++ rest))) =
      verbatim (tagMark tag ++ (body ++ tagMark tag)) true ::
        scan (tagMark tag ++ (body ++ tagMark tag)).getLast? rest := by
  rw [tagMark_append, scan_cons, next_tagMark htag, dollarBody_first (tagMark_ne_nil tag) hfirst]
  rfl

/-- One that is not closed goes to the end of the text. -/
theorem scan_open {tag body : List Char} (htag : TagName tag) (hopen : ¬ tagMark tag <:+: body)
    (before : Option Char) :
    scan before (tagMark tag ++ body) = [verbatim (tagMark tag ++ body) false] := by
  rw [tagMark_append, scan_cons, next_tagMark htag, dollarBody_none hopen, ofSpan, scan_nil,
    ← tagMark_append]

/-- A text in which dollar quotes are closed is cut off at a semicolon behind it. -/
theorem scan_dollarsClosed (h : DollarsClosed cs) (hcs : ∀ c ∈ cs, c ∈ specialChars → c = '$')
    (before : Option Char) (post : List Char) :
    ∃ ls, (∀ l ∈ ls, Inert l) ∧ segmentText ls = cs ∧
      scan before (cs ++ ';' :: post) = ls ++ separator :: scan none post := by
  induction h generalizing before with
  | nil =>
    exact ⟨[], nofun, rfl, scan_semicolon before post⟩
  | @other c rest hopens _ ih =>
    obtain ⟨hc, hrest⟩ := List.forall_mem_cons.mp hcs
    obtain ⟨ls, hinert, htext, hscan⟩ := ih hrest (some c)
    refine ⟨plain c :: ls, ?_, ?_, ?_⟩
    · exact List.forall_mem_cons.mpr ⟨inert_plain c, hinert⟩
    · rw [segmentText_cons, htext]
      rfl
    · rw [List.cons_append, scan_cons, next_word_before hc hopens]
      exact congrArg (plain c :: ·) hscan
  | @closed tag body rest htag hfirst _ ih =>
    have hrest : ∀ d ∈ rest, d ∈ specialChars → d = '$' :=
      fun d hd => hcs d (subset_closed tag body rest hd)
    obtain ⟨ls, hinert, htext, hscan⟩ :=
      ih hrest (tagMark tag ++ (body ++ tagMark tag)).getLast?
    refine ⟨verbatim (tagMark tag ++ (body ++ tagMark tag)) true :: ls, ?_, ?_, ?_⟩
    · exact List.forall_mem_cons.mpr ⟨inert_verbatim _ _, hinert⟩
    · rw [segmentText_cons, htext, text, List.append_assoc, List.append_assoc]
    · rw [List.append_assoc, List.append_assoc, List.append_assoc, scan_closed htag hfirst, hscan]
      rfl

/-- A text that leaves a dollar quote open takes in a semicolon behind it. -/
theorem inert_of_open (h : ¬ DollarsClosed cs) (hcs : ∀ c ∈ cs, c ∈ specialChars → c = '$')
    (before : Option Char) : ∀ l ∈ scan before (cs ++ [';']), Inert l := by
  induction hn : cs.length using Nat.strongRecOn generalizing cs before with
  | _ n ih =>
    cases cs with
    | nil => exact absurd .nil h
    | cons c rest =>
      by_cases hopens : ∃ tag, TagName tag ∧ tagMark tag <+: c :: rest
      · obtain ⟨tag, htag, inside, hinside⟩ := hopens
        rw [← hinside] at h hcs hn ⊢
        by_cases hcloses : tagMark tag <:+: inside
        · obtain ⟨body, others, rfl, hfirst⟩ := exists_first (tagMark_ne_nil tag) hcloses
          have hothers : ¬ DollarsClosed others := fun hclosed => h (.closed htag hfirst hclosed)
          have hlength : others.length < n := by
            rw [← hn, tagMark]
            simp only [List.length_append, List.length_cons]
            omega
          have hrest : ∀ d ∈ others, d ∈ specialChars → d = '$' :=
            fun d hd => hcs d (subset_closed tag body others hd)
          rw [List.append_assoc, List.append_assoc, List.append_assoc, scan_closed htag hfirst]
          exact List.forall_mem_cons.mpr ⟨inert_verbatim _ _, ih _ hlength hothers hrest _ rfl⟩
        · have hnone := not_infix_before (tagMark_ne_nil tag) (semicolon_not_mem_tagMark htag) hcloses
          rw [List.append_assoc, scan_open htag hnone]
          exact List.forall_mem_singleton.mpr (inert_verbatim _ _)
      · have hopens : ∀ tag, TagName tag → ¬ tagMark tag <+: c :: rest :=
          fun tag htag hprefix => hopens ⟨tag, htag, hprefix⟩
        have hrest : ¬ DollarsClosed rest := fun hclosed => h (.other hopens hclosed)
        have hlength : rest.length < n := by
          rw [← hn]
          exact Nat.lt_succ_self _
        obtain ⟨hc, hcs⟩ := List.forall_mem_cons.mp hcs
        rw [List.cons_append, scan_cons, next_word_before hc hopens]
        exact List.forall_mem_cons.mpr ⟨inert_plain c, ih _ hlength hrest hcs _ rfl⟩

/-! ## Scanning quoted names -/

theorem quoted_doubled {body : List Char} (h : Identifier.Doubled body) {post : List Char}
    (hpost : post.head? ≠ some '"') :
    quoted '"' (body ++ '"' :: post) = ⟨body ++ ['"'], true, post⟩ := by
  induction h with
  | nil => exact quoted_end hpost
  | other hc _ ih =>
    rw [List.cons_append, quoted_cons hc, ih]
    rfl
  | pair _ ih =>
    rw [List.cons_append, List.cons_append, quoted, if_pos rfl, if_pos rfl, ih]
    rfl

/-- A quoted name is one lexeme, whatever is in it. -/
theorem scan_doubled {body : List Char} (h : Identifier.Doubled body) (before : Option Char)
    (post : List Char) :
    scan before ('"' :: (body ++ ['"']) ++ ';' :: post) =
      verbatim ('"' :: (body ++ ['"'])) true :: separator :: scan none post := by
  have hpost : (';' :: post).head? ≠ some '"' := fun heq => absurd (Option.some.inj heq) (by decide)
  have hnext : next before '"' (body ++ '"' :: ';' :: post) =
      (verbatim ('"' :: (body ++ ['"'])) true, ';' :: post) := by
    show ofSpan ['"'] (quoted '"' _) = _
    rw [quoted_doubled h hpost]
    rfl
  rw [List.cons_append, List.append_assoc]
  show scan before ('"' :: (body ++ '"' :: ';' :: post)) = _
  rw [scan_cons, hnext, scan_semicolon]

end Lexeme

/-! ## Names -/

theorem isNameChar_of_isPlainChar {c : Char} (h : Savepoint.isPlainChar c = true) (hc : c ≠ '$') :
    isNameChar c = true := by
  unfold Savepoint.isPlainChar Savepoint.isPlainStart at h
  unfold isNameChar Char.isAlphanum Char.isAlpha
  simp only [Bool.or_eq_true, beq_iff_eq] at h ⊢
  rcases h with ((hlower | hunder) | hdigit) | hdollar
  · exact .inl (.inl (.inr hlower))
  · exact .inr hunder
  · exact .inl (.inr hdigit)
  · exact absurd hdollar hc

theorem eq_dollar_of_isPlainChar {c : Char} (h : Savepoint.isPlainChar c = true)
    (hspecial : c ∈ specialChars) : c = '$' := by
  by_contra hc
  exact not_mem_specialChars (by decide) (isNameChar_of_isPlainChar h hc) hspecial

theorem not_isBlank_of_isPlainChar {c : Char} (h : Savepoint.isPlainChar c = true) :
    isBlank c = false := by
  by_cases hc : c = '$'
  · subst hc
    decide
  · exact not_isBlank_of_isNameChar (isNameChar_of_isPlainChar h hc)

theorem bare_quote {name q : String} (h : Savepoint.quote name = .ok q) :
    q.toList ≠ [] ∧ q.toList.getLast?.any isBlank = false := by
  obtain ⟨hplain, rfl⟩ | ⟨-, hq⟩ := Savepoint.quote_eq_ok h
  · obtain ⟨c, rest, hname, -, hall⟩ := Savepoint.isPlain_eq_true hplain
    have hne : q.toList ≠ [] := hname ▸ List.cons_ne_nil c rest
    refine ⟨hne, ?_⟩
    rw [List.getLast?_eq_some_getLast hne, Option.any_some]
    exact not_isBlank_of_isPlainChar (hall _ (List.getLast_mem hne))
  · refine ⟨hq ▸ List.cons_ne_nil _ _, ?_⟩
    rw [hq, ← List.cons_append, List.getLast?_concat]
    decide

theorem scan_quote {name q : String} (h : Savepoint.quote name = .ok q)
    (hclosed : Savepoint.isPlain name.toList = true → DollarsClosed name.toList)
    (before : Option Char) (post : List Char) :
    ∃ ls, (∀ l ∈ ls, l.Inert) ∧ segmentText ls = q.toList ∧
      Lexeme.scan before (q.toList ++ ';' :: post) = ls ++ .separator :: Lexeme.scan none post := by
  obtain ⟨hplain, rfl⟩ | ⟨-, hq⟩ := Savepoint.quote_eq_ok h
  · obtain ⟨-, -, -, -, hall⟩ := Savepoint.isPlain_eq_true hplain
    exact Lexeme.scan_dollarsClosed (hclosed hplain)
      (fun c hc => eq_dollar_of_isPlainChar (hall c hc)) before post
  · rw [hq]
    refine ⟨[.verbatim ('"' :: (Savepoint.doubleQuotes name.toList ++ ['"'])) true], ?_, ?_, ?_⟩
    · exact List.forall_mem_singleton.mpr (Lexeme.inert_verbatim _ _)
    · exact List.append_nil _
    · exact Lexeme.scan_doubled (Savepoint.doubled_doubleQuotes _) before post

/-! ## Statements -/

theorem segmentText_map_plain (cs : List Char) : segmentText (cs.map .plain) = cs := by
  rw [segmentText, List.flatMap_map]
  exact List.flatMap_singleton' cs

/-- A bare text with nothing in it to cut or to number is a statement as it is. -/
theorem ofSegment?_of_bare {sql : String} {ls : List Lexeme} (hls : ∀ l ∈ ls, l.Inert)
    (htext : segmentText ls = sql.toList) (hbare : Bare isBlank sql.toList) (hne : sql.toList ≠ [])
    (numbered : Bool) : segments ls = [ls] ∧ ofSegment? numbered ls = some ⟨sql, []⟩ := by
  refine ⟨segments_of_no_separator fun hin => (hls _ hin).1 rfl, ?_⟩
  rw [Lexeme.ofSegment?_of_inert hls, htext, trimBlanks_of_bare hbare,
    List.isEmpty_eq_false_iff.mpr hne, if_neg Bool.false_ne_true, String.ofList_toList]

/-- The words in front of the name of a savepoint start nothing, and there is no blank before them. -/
theorem openings_spec {words : String} (h : words ∈ Savepoint.openings) :
    words.toList ≠ [] ∧ words.toList.head?.any isBlank = false ∧
      ∀ c ∈ words.toList, c ∉ specialChars := by
  have hspec : words.toList ≠ [] ∧ words.toList.head?.any isBlank = false ∧
      (words.toList.all fun c => isNameChar c || c == ' ') = true := by
    simp only [Savepoint.openings, List.mem_cons, List.not_mem_nil, or_false] at h
    rcases h with rfl | rfl | rfl
    · exact ⟨List.cons_ne_nil _ _, rfl, rfl⟩
    · exact ⟨List.cons_ne_nil _ _, rfl, rfl⟩
    · exact ⟨List.cons_ne_nil _ _, rfl, rfl⟩
  obtain ⟨hne, hhead, hall⟩ := hspec
  have hplain : (specialChars.all fun d => !(isNameChar d || d == ' ')) = true := by decide
  exact ⟨hne, hhead, fun c hc => not_mem_specialChars hplain (List.all_eq_true.mp hall c hc)⟩

/-- Nothing is trimmed off what starts with these words, if it does not end with a blank. -/
theorem bare_savepoint {words : String} (hwords : words ∈ Savepoint.openings) {cs : List Char}
    (hne : cs ≠ []) (hlast : cs.getLast?.any isBlank = false) :
    Bare isBlank (words.toList ++ cs) := by
  obtain ⟨hwords, hhead, -⟩ := openings_spec hwords
  constructor
  · rw [List.head?_append_of_ne_nil _ hwords]
    exact hhead
  · rw [List.getLast?_eq_some_getLast hne] at hlast
    rw [List.getLast?_append, List.getLast?_eq_some_getLast hne, Option.some_or]
    exact hlast

theorem split_savepoint {name q words : String} (hq : Savepoint.quote name = .ok q)
    (hwords : words ∈ Savepoint.openings)
    (hclosed : Savepoint.isPlain name.toList = true → DollarsClosed name.toList) (numbered : Bool)
    (rest : String) :
    split numbered (words ++ q ++ ";" ++ rest) = ⟨words ++ q, []⟩ :: split numbered rest := by
  obtain ⟨hne, -, hspecial⟩ := openings_spec hwords
  obtain ⟨hq', hlast⟩ := bare_quote hq
  obtain ⟨ls, hinert, htext, hscan⟩ :=
    scan_quote hq hclosed (words.toList.getLast?.or none) rest.toList
  have hall : ∀ l ∈ words.toList.map .plain ++ ls, l.Inert :=
    List.forall_mem_append.mpr ⟨Lexeme.inert_map_plain _, hinert⟩
  have hsql : segmentText (words.toList.map .plain ++ ls) = (words ++ q).toList := by
    rw [segmentText_append, segmentText_map_plain, htext, String.toList_append]
  have hbare := bare_savepoint hwords hq' hlast
  rw [← String.toList_append] at hbare
  have hne' : (words ++ q).toList ≠ [] := by
    rw [String.toList_append]
    exact fun h => hne (List.append_eq_nil_iff.mp h).1
  obtain ⟨hone, hstatement⟩ := ofSegment?_of_bare hall hsql hbare hne' numbered
  have hjoined : (words ++ q ++ ";" ++ rest).toList = words.toList ++ (q.toList ++ ';' :: rest.toList) := by
    simp only [String.toList_append, List.append_assoc]
    rfl
  unfold split
  rw [hjoined, Lexeme.scan_of_not_special hspecial, hscan, ← List.append_assoc,
    segments_append_separator, hone, List.filterMap_append, List.filterMap_cons, hstatement]
  rfl

/-- A plain name that leaves a dollar quote open takes the semicolon into its statement. -/
theorem split_savepoint_open {name words : String} (hwords : words ∈ Savepoint.openings)
    (hplain : Savepoint.isPlain name.toList = true) (hopen : ¬ DollarsClosed name.toList)
    (numbered : Bool) :
    split numbered (words ++ name ++ ";") = [⟨words ++ name ++ ";", []⟩] := by
  obtain ⟨-, -, hspecial⟩ := openings_spec hwords
  obtain ⟨-, -, -, -, hall⟩ := Savepoint.isPlain_eq_true hplain
  have htext : (words ++ name ++ ";").toList = words.toList ++ (name.toList ++ [';']) := by
    simp only [String.toList_append, List.append_assoc]
    rfl
  have hinert : ∀ l ∈ Lexeme.scan none (words ++ name ++ ";").toList, l.Inert := by
    rw [htext, Lexeme.scan_of_not_special hspecial]
    exact List.forall_mem_append.mpr ⟨Lexeme.inert_map_plain _,
      Lexeme.inert_of_open hopen (fun c hc => eq_dollar_of_isPlainChar (hall c hc)) _⟩
  have hne : name.toList ++ [';'] ≠ [] := List.concat_ne_nil _ _
  have hbare := bare_savepoint hwords hne (by rw [List.getLast?_concat]; decide)
  have hne' : words.toList ++ (name.toList ++ [';']) ≠ [] :=
    fun h => hne (List.append_eq_nil_iff.mp h).2
  rw [← htext] at hbare hne'
  obtain ⟨hone, hstatement⟩ :=
    ofSegment?_of_bare hinert (segmentText_scan _ _) hbare hne' numbered
  unfold split
  rw [hone, List.filterMap_cons, hstatement]
  rfl

/-- A statement about a savepoint is cut off from whatever text behind it and stays as it is exactly if
its name needs quotes or closes every dollar quote that it opens. -/
theorem split_savepoint_iff {name q words : String} (hq : Savepoint.quote name = .ok q)
    (hwords : words ∈ Savepoint.openings) :
    (∀ numbered rest, split numbered (words ++ q ++ ";" ++ rest) =
        ⟨words ++ q, []⟩ :: split numbered rest) ↔
      (Savepoint.isPlain name.toList = true → DollarsClosed name.toList) := by
  refine ⟨fun hall hplain => ?_, split_savepoint hq hwords⟩
  obtain ⟨-, rfl⟩ | ⟨hquoted, -⟩ := Savepoint.quote_eq_ok hq
  · by_contra hopen
    have hone := hall false ""
    rw [String.append_empty, split_savepoint_open hwords hplain hopen] at hone
    obtain ⟨hsame, -⟩ := List.cons.inj hone
    have hlength := congrArg (fun s : Statement => s.sql.length) hsame
    simp at hlength
  · rw [hplain] at hquoted
    cases hquoted

theorem split_savepoint_iff_tagged :
    Savepoint.quote "a$$b$$" = .ok "a$$b$$" ∧ "SAVEPOINT " ∈ Savepoint.openings ∧
      split true ("SAVEPOINT " ++ "a$$b$$" ++ ";" ++ "SELECT @x") =
        [⟨"SAVEPOINT a$$b$$", []⟩, ⟨"SELECT $1", ["x"]⟩] := by
  have hquote : Savepoint.quote "a$$b$$" = .ok "a$$b$$" := rfl
  have hopening : "SAVEPOINT " ∈ Savepoint.openings := .head _
  have hclosed : DollarsClosed "a$$b$$".toList := by
    refine .other ?_ (@DollarsClosed.closed [] ['b'] [] ⟨nofun, rfl⟩ (by decide) .nil)
    intro tag _ hprefix
    exact absurd (List.cons_prefix_cons.mp hprefix).1 (by decide)
  refine ⟨hquote, hopening, ?_⟩
  rw [(split_savepoint_iff hquote hopening).mpr (fun _ => hclosed) true "SELECT @x"]
  decide +kernel

/-- The scanner takes the dollars in the middle of a name for the mark of a dollar quote. -/
theorem not_all_savepoints_split :
    ¬ ∀ name q, Savepoint.quote name = .ok q → ∀ numbered rest,
      split numbered ("SAVEPOINT " ++ q ++ ";" ++ rest) =
        ⟨"SAVEPOINT " ++ q, []⟩ :: split numbered rest := by
  intro hall
  have hone := hall "a$$" "a$$" rfl false "SELECT 1"
  have hsplit : split false ("SAVEPOINT " ++ "a$$" ++ ";" ++ "SELECT 1") =
      [⟨"SAVEPOINT a$$;SELECT 1", []⟩] := by
    decide +kernel
  rw [hsplit] at hone
  exact absurd (congrArg (fun s : Statement => s.sql.length) (List.cons.inj hone).1) (by decide)

end Statement
end SqlSession
