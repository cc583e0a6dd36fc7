import Mathlib.Data.List.Basic
import SqlSession.Proofs.Statement.Scanner

/-!
# Text that the scanner does not look into

Quoted text, comments and dollar-quoted bodies are described here by grammars that know nothing of
the scanner.  `Scanner.run_opaque` says that the scanner keeps each of them as it is and comes out
at its end, and `Scanner.run_unclosed` that it keeps everything up to the end of the text if what
was opened is never closed.
-/

namespace SqlSession
namespace Statement

/-! ## Grammars -/

/-- The text between two quotes.  Every quote in it is doubled. -/
inductive QuotedBody (mark : UInt8) : List UInt8 → Prop
  | nil : QuotedBody mark []
  | other {b : UInt8} {body : List UInt8} (ne : b ≠ mark) (others : QuotedBody mark body) :
      QuotedBody mark (b :: body)
  | doubled {body : List UInt8} (others : QuotedBody mark body) :
      QuotedBody mark (mark :: mark :: body)

def OpensComment (b : UInt8) (rest : List UInt8) : Prop :=
  b = '/'.toUInt8 ∧ rest.head? = some '*'.toUInt8

def ClosesComment (b : UInt8) (rest : List UInt8) : Prop :=
  b = '*'.toUInt8 ∧ rest.head? = some '/'.toUInt8

/-- A text inside so many open comments that ends when all of them are closed.  It is read from left
to right, and a byte that opens or closes a comment with the next one does nothing else. -/
inductive Comment : Nat → List UInt8 → Prop
  | done : Comment 0 []
  | opened {depth : Nat} {body : List UInt8} (others : Comment (depth + 2) body) :
      Comment (depth + 1) ('/'.toUInt8 :: '*'.toUInt8 :: body)
  | closed {depth : Nat} {body : List UInt8} (others : Comment depth body) :
      Comment (depth + 1) ('*'.toUInt8 :: '/'.toUInt8 :: body)
  | other {depth : Nat} {b : UInt8} {body : List UInt8} (not_opens : ¬ OpensComment b body)
      (not_closes : ¬ ClosesComment b body) (others : Comment (depth + 1) body) :
      Comment (depth + 1) (b :: body)

structure IsTag (tag : List UInt8) : Prop where
  name : ∀ b ∈ tag, isNameByte b = true
  digit : tag.head?.any isDigitByte = false

/-- The closer behind the body is the first one. -/
def ClosedFirst (closer body : List UInt8) : Prop :=
  ∀ i < body.length, ¬ closer <+: (body ++ closer).drop i

/-- A text that stands before `post` and is one quoted text, comment or dollar-quoted body. -/
inductive Opaque : List UInt8 → List UInt8 → Prop
  | quoted {mark : UInt8} {body post : List UInt8}
      (mark_eq : mark = '\''.toUInt8 ∨ mark = '"'.toUInt8) (inside : QuotedBody mark body)
      (ends : post.head? ≠ some mark) : Opaque (mark :: (body ++ [mark])) post
  | lineComment {body post : List UInt8} (inside : '\n'.toUInt8 ∉ body) :
      Opaque ('-'.toUInt8 :: '-'.toUInt8 :: (body ++ ['\n'.toUInt8])) post
  | blockComment {body post : List UInt8} (inside : Comment 1 body) :
      Opaque ('/'.toUInt8 :: '*'.toUInt8 :: body) post
  | dollarQuoted {tag body post : List UInt8} (isTag : IsTag tag)
      (first : ClosedFirst (dollarMark tag) body) :
      Opaque (dollarMark tag ++ (body ++ dollarMark tag)) post

/-- The text starts like one that is opaque. -/
inductive Opens : List UInt8 → Prop
  | quoted {mark : UInt8} {rest : List UInt8}
      (mark_eq : mark = '\''.toUInt8 ∨ mark = '"'.toUInt8) : Opens (mark :: rest)
  | lineComment {rest : List UInt8} : Opens ('-'.toUInt8 :: '-'.toUInt8 :: rest)
  | blockComment {rest : List UInt8} : Opens ('/'.toUInt8 :: '*'.toUInt8 :: rest)
  | dollarQuoted {tag rest : List UInt8} (isTag : IsTag tag) : Opens (dollarMark tag ++ rest)

/-! ## What is never closed -/

theorem quotedBody_or_closed (mark : UInt8) (rest : List UInt8) :
    QuotedBody mark rest ∨
      ∃ body post, rest = body ++ mark :: post ∧ QuotedBody mark body ∧ post.head? ≠ some mark := by
  have haux : ∀ n (rest : List UInt8), rest.length ≤ n → QuotedBody mark rest ∨
      ∃ body post, rest = body ++ mark :: post ∧ QuotedBody mark body ∧
        post.head? ≠ some mark := by
    intro n
    induction n with
    | zero =>
      intro rest hlength
      rw [List.length_eq_zero_iff.mp (Nat.le_zero.mp hlength)]
      exact .inl .nil
    | succ n ih =>
      intro rest hlength
      cases rest with
      | nil => exact .inl .nil
      | cons b rest =>
        have hrest : rest.length ≤ n := Nat.le_of_succ_le_succ hlength
        by_cases hb : b = mark
        · subst hb
          by_cases hnext : rest.head? = some b
          · cases rest with
            | nil => cases hnext
            | cons c rest =>
              obtain rfl : c = b := Option.some.inj hnext
              rcases ih rest (Nat.le_of_succ_le hrest) with hin | ⟨body, post, rfl, hin, hpost⟩
              · exact .inl (.doubled hin)
              · exact .inr ⟨_ :: _ :: body, post, rfl, .doubled hin, hpost⟩
          · exact .inr ⟨[], rest, rfl, .nil, hnext⟩
        · rcases ih rest hrest with hin | ⟨body, post, rfl, hin, hpost⟩
          · exact .inl (.other hb hin)
          · exact .inr ⟨b :: body, post, rfl, .other hb hin, hpost⟩
  exact haux rest.length rest (Nat.le_refl _)

theorem Comment.ne_nil {depth : Nat} {body : List UInt8} (h : Comment (depth + 1) body) :
    body ≠ [] := by
  cases h <;> exact List.cons_ne_nil _ _

theorem closedFirst_or_never (closer rest : List UInt8) :
    (∃ body post, rest = body ++ (closer ++ post) ∧ ClosedFirst closer body) ∨
      ∀ i, i < rest.length → ¬ closer <+: rest.drop i := by
  induction rest with
  | nil => exact .inr fun i hi => absurd hi (Nat.not_lt_zero i)
  | cons b rest ih =>
    by_cases hhere : closer <+: b :: rest
    · obtain ⟨post, hpost⟩ := hhere
      exact .inl ⟨[], post, hpost.symm, fun i hi => absurd hi (Nat.not_lt_zero i)⟩
    · rcases ih with ⟨body, post, rfl, hfirst⟩ | hnever
      · refine .inl ⟨b :: body, post, rfl, ?_⟩
        intro i hi
        cases i with
        | zero =>
          intro hprefix
          apply hhere
          refine hprefix.trans ⟨post, ?_⟩
          show (b :: (body ++ closer)) ++ post = _
          rw [List.cons_append, List.append_assoc]
        | succ i => exact hfirst i (Nat.lt_of_succ_lt_succ hi)
      · refine .inr fun i hi => ?_
        cases i with
        | zero => exact hhere
        | succ i => exact hnever i (Nat.lt_of_succ_lt_succ hi)

theorem tag?_of_isTag {tag : List UInt8} (h : IsTag tag) (body : List UInt8) :
    tag? (tag ++ '$'.toUInt8 :: body) = some (tag, body) := by
  have hdollar : isNameByte '$'.toUInt8 = false := by decide
  have hdigit : ((tag ++ '$'.toUInt8 :: body).head?.any isDigitByte) = false := by
    cases tag with
    | nil => rfl
    | cons b tag => exact h.digit
  have htake : (tag ++ '$'.toUInt8 :: body).takeWhile isNameByte = tag := by
    rw [List.takeWhile_append_of_pos h.name, List.takeWhile_cons_of_neg (by simp [hdollar]),
      List.append_nil]
  have hdrop : (tag ++ '$'.toUInt8 :: body).dropWhile isNameByte = '$'.toUInt8 :: body := by
    rw [List.dropWhile_append_of_pos h.name, List.dropWhile_cons_of_neg (by simp [hdollar])]
  unfold tag?
  rw [hdigit, hdrop, htake]
  rfl

namespace Scanner

variable {numbered : Bool} {s t u : Scanner}

/-! ## Steps -/

theorem step?_eq {b : UInt8} {rest : List UInt8} (hrest : s.rest = b :: rest) :
    s.step? numbered = some (match s.mode with
      | .normal => s.stepNormal numbered b rest
      | .quoted mark => s.stepQuoted mark b rest
      | .lineComment => s.stepLineComment b rest
      | .blockComment depth => s.stepBlockComment depth b rest
      | .dollarQuoted tag => s.stepDollarQuoted tag b rest) := by
  unfold step?
  rw [hrest]
  cases s.mode <;> rfl

theorem keep_keep (s : Scanner) (xs ys rest rest' : List UInt8) (mode mode' : Mode) :
    (s.keep xs rest mode).keep ys rest' mode' = s.keep (xs ++ ys) rest' mode' := by
  simp only [keep, List.append_assoc]

theorem keep_nil {rest : List UInt8} {mode : Mode} (hmode : s.mode = mode)
    (hrest : s.rest = rest) : s.keep [] rest mode = s := by
  subst hmode hrest
  simp only [keep, List.append_nil]

/-! ## Runs outside of the normal mode -/

/-- The scanner comes from `s` to `t` and is not in the normal mode before it is there. -/
def Hidden (numbered : Bool) (s t : Scanner) : Prop :=
  ∃ visited, Run numbered s visited t ∧ ∀ u ∈ visited, u.mode ≠ .normal

theorem Hidden.refl (s : Scanner) : Hidden numbered s s := ⟨[], .refl s, nofun⟩

theorem Hidden.trans (h : Hidden numbered s t) (h' : Hidden numbered t u) : Hidden numbered s u := by
  obtain ⟨xs, hxs, hmode⟩ := h
  obtain ⟨ys, hys, hmode'⟩ := h'
  refine ⟨xs ++ ys, hxs.trans hys, fun v hv => ?_⟩
  rcases List.mem_append.mp hv with hv | hv
  · exact hmode v hv
  · exact hmode' v hv

theorem Hidden.single (hmode : s.mode ≠ .normal) (h : s.step? numbered = some t) :
    Hidden numbered s t := by
  refine ⟨[s], .single h, fun v hv => ?_⟩
  rw [List.mem_singleton.mp hv]
  exact hmode

theorem Hidden.keep_trans (xs : List UInt8) {ys rest rest' : List UInt8} {mode mode' : Mode}
    (hmode : s.mode ≠ .normal) (h : s.step? numbered = some (s.keep xs rest mode))
    (h' : Hidden numbered (s.keep xs rest mode) ((s.keep xs rest mode).keep ys rest' mode')) :
    Hidden numbered s (s.keep (xs ++ ys) rest' mode') := by
  rw [keep_keep] at h'
  exact (Hidden.single hmode h).trans h'

/-- The scanner keeps all that is left and is then still inside of something. -/
def Unended (numbered : Bool) (s : Scanner) : Prop :=
  ∃ mode, Hidden numbered s (s.keep s.rest [] mode) ∧ mode ≠ .normal

theorem Unended.of_end (hmode : s.mode ≠ .normal) (hrest : s.rest = []) : Unended numbered s := by
  refine ⟨s.mode, ?_, hmode⟩
  rw [hrest, keep_nil rfl hrest]
  exact .refl s

theorem Unended.of_step (xs : List UInt8) {rest : List UInt8} {mode : Mode} (hmode : s.mode ≠ .normal)
    (hstep : s.step? numbered = some (s.keep xs rest mode)) (hrest : s.rest = xs ++ rest)
    (h : Unended numbered (s.keep xs rest mode)) : Unended numbered s := by
  obtain ⟨mode', hidden, hmode'⟩ := h
  refine ⟨mode', ?_, hmode'⟩
  rw [hrest]
  exact Hidden.keep_trans xs hmode hstep hidden

theorem hidden_bytes {mode : Mode} {bytes post : List UInt8} (hmode : mode ≠ .normal)
    (hkept : ∀ {s : Scanner} {b : UInt8} {rest : List UInt8}, b ∈ bytes → s.mode = mode →
      s.rest = b :: rest → s.step? numbered = some (s.keep [b] rest mode))
    (hs : s.mode = mode) (hrest : s.rest = bytes ++ post) :
    Hidden numbered s (s.keep bytes post mode) := by
  induction bytes generalizing s with
  | nil =>
    have hself : s.keep [] post mode = s := keep_nil hs hrest
    rw [hself]
    exact .refl s
  | cons b bytes ih =>
    have hstep : s.step? numbered = some (s.keep [b] (bytes ++ post) mode) :=
      hkept List.mem_cons_self hs hrest
    refine Hidden.keep_trans [b] (hs ▸ hmode) hstep (ih ?_ rfl rfl)
    exact fun hb => hkept (List.mem_cons_of_mem b hb)

/-! ## Quoted text -/

theorem step?_quoted {mark b : UInt8} {rest : List UInt8} (hmode : s.mode = .quoted mark)
    (hrest : s.rest = b :: rest) :
    s.step? numbered = some (s.stepQuoted mark b rest) := by
  rw [step?_eq hrest, hmode]

theorem hidden_quotedBody {mark : UInt8} {body : List UInt8} (h : QuotedBody mark body)
    {post : List UInt8} (hmode : s.mode = .quoted mark) (hrest : s.rest = body ++ post) :
    Hidden numbered s (s.keep body post (.quoted mark)) := by
  have hne : s.mode ≠ .normal := by rw [hmode]; exact nofun
  induction h generalizing s with
  | nil =>
    have hself : s.keep [] post (.quoted mark) = s := keep_nil hmode hrest
    rw [hself]
    exact .refl s
  | @other b body hb _ ih =>
    have hstep : s.step? numbered = some (s.keep [b] (body ++ post) (.quoted mark)) := by
      rw [step?_quoted hmode hrest, stepQuoted, if_neg hb]
      rfl
    exact Hidden.keep_trans [b] hne hstep (ih rfl rfl nofun)
  | @doubled body _ ih =>
    have hstep : s.step? numbered = some (s.keep [mark, mark] (body ++ post) (.quoted mark)) := by
      rw [step?_quoted hmode hrest, stepQuoted, if_pos rfl]
      exact congrArg some (if_pos rfl)
    exact Hidden.keep_trans [mark, mark] hne hstep (ih rfl rfl nofun)

theorem hidden_quoted {mark : UInt8} {body post : List UInt8} (h : QuotedBody mark body)
    (hpost : post.head? ≠ some mark) (hmode : s.mode = .quoted mark)
    (hrest : s.rest = body ++ mark :: post) :
    Hidden numbered s (s.keep (body ++ [mark]) post .normal) := by
  have hbody : Hidden numbered s (s.keep body (mark :: post) (.quoted mark)) :=
    hidden_quotedBody h hmode hrest
  have hstep : (s.keep body (mark :: post) (.quoted mark)).step? numbered =
      some ((s.keep body (mark :: post) (.quoted mark)).keep [mark] post .normal) := by
    rw [step?_quoted rfl rfl, stepQuoted, if_pos rfl, if_neg hpost]
  rw [keep_keep] at hstep
  exact hbody.trans (.single nofun hstep)

/-! ## Line comments -/

theorem step?_lineComment {b : UInt8} {rest : List UInt8} (hmode : s.mode = .lineComment)
    (hrest : s.rest = b :: rest) :
    s.step? numbered = some (s.stepLineComment b rest) := by
  rw [step?_eq hrest, hmode]

theorem hidden_lineBody {body post : List UInt8} (h : '\n'.toUInt8 ∉ body)
    (hmode : s.mode = .lineComment) (hrest : s.rest = body ++ post) :
    Hidden numbered s (s.keep body post .lineComment) := by
  refine hidden_bytes nofun ?_ hmode hrest
  intro s b rest hb hmode hrest
  have hb : b ≠ '\n'.toUInt8 := fun heq => h (heq ▸ hb)
  rw [step?_lineComment hmode hrest, stepLineComment, if_neg hb]

theorem hidden_line {body post : List UInt8} (h : '\n'.toUInt8 ∉ body)
    (hmode : s.mode = .lineComment) (hrest : s.rest = body ++ '\n'.toUInt8 :: post) :
    Hidden numbered s (s.keep (body ++ ['\n'.toUInt8]) post .normal) := by
  have hbody : Hidden numbered s (s.keep body ('\n'.toUInt8 :: post) .lineComment) :=
    hidden_lineBody h hmode hrest
  have hstep : (s.keep body ('\n'.toUInt8 :: post) .lineComment).step? numbered =
      some ((s.keep body ('\n'.toUInt8 :: post) .lineComment).keep ['\n'.toUInt8] post .normal) := by
    rw [step?_lineComment rfl rfl, stepLineComment, if_pos rfl]
  rw [keep_keep] at hstep
  exact hbody.trans (.single nofun hstep)

/-! ## Block comments -/

theorem step?_blockComment {depth : Nat} {b : UInt8} {rest : List UInt8}
    (hmode : s.mode = .blockComment depth) (hrest : s.rest = b :: rest) :
    s.step? numbered = some (s.stepBlockComment depth b rest) := by
  rw [step?_eq hrest, hmode]

theorem stepBlockComment_opens {depth : Nat} {rest : List UInt8} :
    s.stepBlockComment depth '/'.toUInt8 ('*'.toUInt8 :: rest) =
      s.keep ['/'.toUInt8, '*'.toUInt8] rest (.blockComment (depth + 1)) :=
  if_pos ⟨rfl, rfl⟩

theorem stepBlockComment_closes {depth : Nat} {rest : List UInt8} :
    s.stepBlockComment depth '*'.toUInt8 ('/'.toUInt8 :: rest) =
      s.keep ['*'.toUInt8, '/'.toUInt8] rest
        (if depth = 1 then .normal else .blockComment (depth - 1)) := by
  have hnot : ¬ OpensComment '*'.toUInt8 ('/'.toUInt8 :: rest) := fun h =>
    absurd h.1 (by decide)
  exact (if_neg hnot).trans (if_pos ⟨rfl, rfl⟩)

theorem stepBlockComment_other {depth : Nat} {b : UInt8} {rest : List UInt8}
    (hopens : ¬ OpensComment b rest) (hcloses : ¬ ClosesComment b rest) :
    s.stepBlockComment depth b rest = s.keep [b] rest (.blockComment depth) :=
  (if_neg hopens).trans (if_neg hcloses)

theorem hidden_comment {depth : Nat} {body post : List UInt8} (h : Comment (depth + 1) body)
    (hmode : s.mode = .blockComment (depth + 1)) (hrest : s.rest = body ++ post) :
    Hidden numbered s (s.keep body post .normal) := by
  have haux : ∀ {d : Nat} {body : List UInt8}, Comment d body → ∀ {depth : Nat} {s : Scanner},
      d = depth + 1 → s.mode = .blockComment d → s.rest = body ++ post →
      Hidden numbered s (s.keep body post .normal) := by
    intro d body h
    induction h with
    | done =>
      intro depth s hd
      cases hd
    | @opened depth' body _ ih =>
      intro depth s hd hmode hrest
      have hne : s.mode ≠ .normal := by rw [hmode]; exact nofun
      have hstep : s.step? numbered = some (s.keep ['/'.toUInt8, '*'.toUInt8] (body ++ post)
          (.blockComment (depth' + 2))) := by
        rw [step?_blockComment hmode hrest]
        exact congrArg some stepBlockComment_opens
      exact Hidden.keep_trans ['/'.toUInt8, '*'.toUInt8] hne hstep (ih rfl rfl rfl)
    | @closed depth' body hbody ih =>
      intro depth s hd hmode hrest
      have hne : s.mode ≠ .normal := by rw [hmode]; exact nofun
      have hstep : s.step? numbered = some (s.keep ['*'.toUInt8, '/'.toUInt8] (body ++ post)
          (if depth' + 1 = 1 then .normal else .blockComment depth')) := by
        rw [step?_blockComment hmode hrest]
        exact congrArg some stepBlockComment_closes
      cases depth' with
      | zero =>
        cases hbody
        exact .single hne hstep
      | succ depth' =>
        rw [if_neg (by omega)] at hstep
        exact Hidden.keep_trans ['*'.toUInt8, '/'.toUInt8] hne hstep (ih rfl rfl rfl)
    | @other depth' b body hopens hcloses hbody ih =>
      intro depth s hd hmode hrest
      have hne : s.mode ≠ .normal := by rw [hmode]; exact nofun
      -- What opens or closes a comment is seen whatever stands behind the text.
      have hhead : (body ++ post).head? = body.head? := List.head?_append_of_ne_nil body hbody.ne_nil
      have hstep : s.step? numbered = some (s.keep [b] (body ++ post)
          (.blockComment (depth' + 1))) := by
        rw [step?_blockComment hmode hrest]
        refine congrArg some (stepBlockComment_other ?_ ?_)
        · exact fun h => hopens ⟨h.1, hhead ▸ h.2⟩
        · exact fun h => hcloses ⟨h.1, hhead ▸ h.2⟩
      exact Hidden.keep_trans [b] hne hstep (ih rfl rfl rfl)
  exact haux h rfl hmode hrest

theorem unended_comment {depth : Nat} (hmode : s.mode = .blockComment (depth + 1))
    (hnever : ∀ body post, s.rest = body ++ post → ¬ Comment (depth + 1) body) :
    Unended numbered s := by
  have haux : ∀ n {depth : Nat} {s : Scanner}, s.rest.length ≤ n →
      s.mode = .blockComment (depth + 1) →
      (∀ body post, s.rest = body ++ post → ¬ Comment (depth + 1) body) →
      Unended numbered s := by
    intro n
    induction n with
    | zero =>
      intro depth s hlength hmode _
      have hne : s.mode ≠ .normal := by rw [hmode]; exact nofun
      exact .of_end hne (List.length_eq_zero_iff.mp (Nat.le_zero.mp hlength))
    | succ n ih =>
      intro depth s hlength hmode hnever
      have hne : s.mode ≠ .normal := by rw [hmode]; exact nofun
      cases hrest : s.rest with
      | nil => exact .of_end hne hrest
      | cons b rest =>
        rw [hrest] at hlength
        have hrestLength : rest.length ≤ n := Nat.le_of_succ_le_succ hlength
        by_cases hopens : OpensComment b rest
        · obtain ⟨rfl, hnext⟩ := hopens
          obtain ⟨rest, rfl⟩ := List.head?_eq_some_iff.mp hnext
          have hstep : s.step? numbered = some (s.keep ['/'.toUInt8, '*'.toUInt8] rest
              (.blockComment (depth + 2))) := by
            rw [step?_blockComment hmode hrest]
            exact congrArg some stepBlockComment_opens
          refine Unended.of_step _ hne hstep hrest (ih (Nat.le_of_succ_le hrestLength) rfl ?_)
          intro body post hbody hcomment
          have hbody : rest = body ++ post := hbody
          refine hnever ('/'.toUInt8 :: '*'.toUInt8 :: body) post ?_ (.opened hcomment)
          rw [hrest, hbody]
          rfl
        · by_cases hcloses : ClosesComment b rest
          · obtain ⟨rfl, hnext⟩ := hcloses
            obtain ⟨rest, rfl⟩ := List.head?_eq_some_iff.mp hnext
            have hstep : s.step? numbered = some (s.keep ['*'.toUInt8, '/'.toUInt8] rest
                (if depth + 1 = 1 then .normal else .blockComment depth)) := by
              rw [step?_blockComment hmode hrest]
              exact congrArg some stepBlockComment_closes
            cases depth with
            | zero => exact absurd (.closed .done) (hnever _ rest hrest)
            | succ depth =>
              rw [if_neg (by omega)] at hstep
              refine Unended.of_step _ hne hstep hrest (ih (Nat.le_of_succ_le hrestLength) rfl ?_)
              intro body post hbody hcomment
              have hbody : rest = body ++ post := hbody
              refine hnever ('*'.toUInt8 :: '/'.toUInt8 :: body) post ?_ (.closed hcomment)
              rw [hrest, hbody]
              rfl
          · have hstep : s.step? numbered = some (s.keep [b] rest (.blockComment (depth + 1))) := by
              rw [step?_blockComment hmode hrest]
              exact congrArg some (stepBlockComment_other hopens hcloses)
            refine Unended.of_step _ hne hstep hrest (ih hrestLength rfl ?_)
            intro body post hbody hcomment
            have hbody : rest = body ++ post := hbody
            have hhead : (body ++ post).head? = body.head? :=
              List.head?_append_of_ne_nil body hcomment.ne_nil
            rw [← hbody] at hhead
            refine hnever (b :: body) post ?_ (.other ?_ ?_ hcomment)
            · rw [hrest, hbody]
              rfl
            · exact fun h => hopens ⟨h.1, hhead ▸ h.2⟩
            · exact fun h => hcloses ⟨h.1, hhead ▸ h.2⟩
  exact haux _ (Nat.le_refl _) hmode hnever

/-! ## Dollar quotes -/

theorem step?_dollarQuoted {tag : List UInt8} {b : UInt8} {rest : List UInt8}
    (hmode : s.mode = .dollarQuoted tag) (hrest : s.rest = b :: rest) :
    s.step? numbered = some (s.stepDollarQuoted tag b rest) := by
  rw [step?_eq hrest, hmode]

theorem stepDollarQuoted_closes {tag : List UInt8} {b : UInt8} {rest post : List UInt8}
    (h : b :: rest = dollarMark tag ++ post) :
    s.stepDollarQuoted tag b rest = s.keep (dollarMark tag) post .normal := by
  have hprefix : (dollarMark tag).isPrefixOf (b :: rest) = true := by
    rw [List.isPrefixOf_iff_prefix]
    exact ⟨post, h.symm⟩
  have hdrop : (b :: rest).drop (dollarMark tag).length = post := by rw [h, List.drop_left]
  unfold stepDollarQuoted
  rw [if_pos hprefix, hdrop]

theorem stepDollarQuoted_other {tag : List UInt8} {b : UInt8} {rest : List UInt8}
    (h : ¬ dollarMark tag <+: b :: rest) :
    s.stepDollarQuoted tag b rest = s.keep [b] rest (.dollarQuoted tag) := by
  have hprefix : ¬ (dollarMark tag).isPrefixOf (b :: rest) = true := by
    rw [List.isPrefixOf_iff_prefix]
    exact h
  unfold stepDollarQuoted
  rw [if_neg hprefix]

theorem hidden_dollarQuoted {tag body post : List UInt8} (h : ClosedFirst (dollarMark tag) body)
    (hmode : s.mode = .dollarQuoted tag) (hrest : s.rest = body ++ (dollarMark tag ++ post)) :
    Hidden numbered s (s.keep (body ++ dollarMark tag) post .normal) := by
  have hne : s.mode ≠ .normal := by rw [hmode]; exact nofun
  induction body generalizing s with
  | nil =>
    have hrest : s.rest = '$'.toUInt8 :: (tag ++ ['$'.toUInt8] ++ post) := hrest
    refine .single hne ?_
    rw [step?_dollarQuoted hmode hrest]
    exact congrArg some (stepDollarQuoted_closes rfl)
  | cons b body ih =>
    have hnot : ¬ dollarMark tag <+: b :: (body ++ (dollarMark tag ++ post)) := by
      intro hprefix
      -- The closer fits into the body and its closer, so it would not be the first one.
      apply h 0 (Nat.succ_pos _)
      have hwhole : (b :: body) ++ dollarMark tag <+: b :: (body ++ (dollarMark tag ++ post)) :=
        ⟨post, by simp⟩
      refine List.prefix_of_prefix_length_le hprefix hwhole ?_
      rw [List.drop_zero, List.length_append]
      exact Nat.le_add_left _ _
    have hstep : s.step? numbered =
        some (s.keep [b] (body ++ (dollarMark tag ++ post)) (.dollarQuoted tag)) := by
      rw [step?_dollarQuoted hmode hrest]
      exact congrArg some (stepDollarQuoted_other hnot)
    refine Hidden.keep_trans [b] hne hstep (ih ?_ rfl rfl nofun)
    exact fun i hi => h (i + 1) (Nat.succ_lt_succ hi)

theorem unended_dollarQuoted {tag : List UInt8} (hmode : s.mode = .dollarQuoted tag)
    (hnever : ∀ i, i < s.rest.length → ¬ dollarMark tag <+: s.rest.drop i) :
    Unended numbered s := by
  have haux : ∀ (rest : List UInt8) {s : Scanner}, s.rest = rest → s.mode = .dollarQuoted tag →
      (∀ i, i < rest.length → ¬ dollarMark tag <+: rest.drop i) → Unended numbered s := by
    intro rest
    induction rest with
    | nil =>
      intro s hrest hmode _
      have hne : s.mode ≠ .normal := by rw [hmode]; exact nofun
      exact .of_end hne hrest
    | cons b rest ih =>
      intro s hrest hmode hnever
      have hne : s.mode ≠ .normal := by rw [hmode]; exact nofun
      refine Unended.of_step [b] hne ?_ hrest (ih rfl rfl ?_)
      · rw [step?_dollarQuoted hmode hrest]
        exact congrArg some (stepDollarQuoted_other (hnever 0 (Nat.succ_pos _)))
      · exact fun i hi => hnever (i + 1) (Nat.succ_lt_succ hi)
  exact haux s.rest rfl hmode hnever

/-! ## Openings -/

theorem step?_normal {b : UInt8} {rest : List UInt8} (hmode : s.mode = .normal)
    (hrest : s.rest = b :: rest) :
    s.step? numbered = some (s.stepNormal numbered b rest) := by
  rw [step?_eq hrest, hmode]

theorem stepNormal_quote {mark : UInt8} {rest : List UInt8}
    (h : mark = '\''.toUInt8 ∨ mark = '"'.toUInt8) :
    s.stepNormal numbered mark rest = s.keep [mark] rest (.quoted mark) :=
  if_pos h

theorem stepNormal_lineComment {rest : List UInt8} :
    s.stepNormal numbered '-'.toUInt8 ('-'.toUInt8 :: rest) =
      s.keep ['-'.toUInt8] ('-'.toUInt8 :: rest) .lineComment :=
  (if_neg (by decide)).trans (if_pos ⟨rfl, rfl⟩)

theorem stepNormal_blockComment {rest : List UInt8} :
    s.stepNormal numbered '/'.toUInt8 ('*'.toUInt8 :: rest) =
      s.keep ['/'.toUInt8, '*'.toUInt8] rest (.blockComment 1) := by
  have hdash : ¬ ('/'.toUInt8 = '-'.toUInt8 ∧ ('*'.toUInt8 :: rest).head? = some '-'.toUInt8) :=
    fun h => absurd h.1 (by decide)
  exact (if_neg (by decide)).trans ((if_neg hdash).trans (if_pos ⟨rfl, rfl⟩))

theorem stepNormal_dollar {rest : List UInt8} :
    s.stepNormal numbered '$'.toUInt8 rest =
      match tag? rest with
      | some (tag, body) => s.keep (dollarMark tag) body (.dollarQuoted tag)
      | none => s.keep ['$'.toUInt8] rest .normal := by
  have hdash : ¬ ('$'.toUInt8 = '-'.toUInt8 ∧ rest.head? = some '-'.toUInt8) :=
    fun h => absurd h.1 (by decide)
  have hslash : ¬ ('$'.toUInt8 = '/'.toUInt8 ∧ rest.head? = some '*'.toUInt8) :=
    fun h => absurd h.1 (by decide)
  exact (if_neg (by decide)).trans
    ((if_neg hdash).trans ((if_neg hslash).trans (if_pos rfl)))

theorem run_of_hidden {xs ys rest rest' : List UInt8} {mode mode' : Mode}
    (hstep : s.step? numbered = some (s.keep xs rest mode))
    (h : Hidden numbered (s.keep xs rest mode) ((s.keep xs rest mode).keep ys rest' mode')) :
    ∃ more, Run numbered s (s :: more) (s.keep (xs ++ ys) rest' mode') ∧
      ∀ u ∈ more, u.mode ≠ .normal := by
  obtain ⟨visited, hrun, hhidden⟩ := h
  rw [keep_keep] at hrun
  exact ⟨visited, .step hstep hrun, hhidden⟩

theorem step?_dollarMark {tag body : List UInt8} (hmode : s.mode = .normal) (htag : IsTag tag)
    (hrest : s.rest = dollarMark tag ++ body) :
    s.step? numbered = some (s.keep (dollarMark tag) body (.dollarQuoted tag)) := by
  have hcons : s.rest = '$'.toUInt8 :: (tag ++ '$'.toUInt8 :: body) := by
    rw [hrest, dollarMark, List.cons_append, List.append_assoc]
    rfl
  rw [step?_normal hmode hcons, stepNormal_dollar, tag?_of_isTag htag]

/-- The scanner keeps an opaque text as it is, is in the normal mode behind it, and is not before. -/
theorem run_opaque {text post : List UInt8} (h : Opaque text post) (hmode : s.mode = .normal)
    (hrest : s.rest = text ++ post) :
    ∃ more, Run numbered s (s :: more) (s.keep text post .normal) ∧
      ∀ u ∈ more, u.mode ≠ .normal := by
  cases h with
  | @quoted mark body _ hmark hbody hpost =>
    have hcons : s.rest = mark :: (body ++ mark :: post) := by
      rw [hrest, List.cons_append, List.append_assoc]
      rfl
    have hstep : s.step? numbered = some (s.keep [mark] (body ++ mark :: post) (.quoted mark)) := by
      rw [step?_normal hmode hcons, stepNormal_quote hmark]
    exact run_of_hidden hstep (hidden_quoted hbody hpost rfl rfl)
  | @lineComment body _ hbody =>
    have hcons : s.rest = '-'.toUInt8 :: '-'.toUInt8 :: (body ++ '\n'.toUInt8 :: post) := by
      rw [hrest, List.cons_append, List.cons_append, List.append_assoc]
      rfl
    have hstep : s.step? numbered = some (s.keep ['-'.toUInt8]
        ('-'.toUInt8 :: (body ++ '\n'.toUInt8 :: post)) .lineComment) := by
      rw [step?_normal hmode hcons, stepNormal_lineComment]
    -- The second dash is read inside of the comment.
    have hdash : '\n'.toUInt8 ∉ '-'.toUInt8 :: body := by
      rw [List.mem_cons, not_or]
      exact ⟨by decide, hbody⟩
    exact run_of_hidden hstep (hidden_line hdash rfl rfl)
  | @blockComment body _ hbody =>
    have hstep : s.step? numbered = some (s.keep ['/'.toUInt8, '*'.toUInt8] (body ++ post)
        (.blockComment 1)) := by
      rw [step?_normal hmode hrest]
      exact congrArg some stepNormal_blockComment
    exact run_of_hidden hstep (hidden_comment hbody rfl rfl)
  | @dollarQuoted tag body _ htag hfirst =>
    have happend : s.rest = dollarMark tag ++ (body ++ (dollarMark tag ++ post)) := by
      rw [hrest, List.append_assoc, List.append_assoc]
    have hstep : s.step? numbered = some (s.keep (dollarMark tag)
        (body ++ (dollarMark tag ++ post)) (.dollarQuoted tag)) :=
      step?_dollarMark hmode htag happend
    exact run_of_hidden hstep (hidden_dollarQuoted hfirst rfl rfl)

/-- If what is opened is never closed, the scanner keeps all that is left as it is and never is in
the normal mode again. -/
theorem run_unclosed (hopens : Opens s.rest) (hmode : s.mode = .normal)
    (hnever : ∀ text post, s.rest = text ++ post → ¬ Opaque text post) :
    ∃ more mode, Run numbered s (s :: more) (s.keep s.rest [] mode) ∧
      ∀ u ∈ more, u.mode ≠ .normal := by
  have hfrom : ∀ {xs rest : List UInt8} {mode : Mode}, s.rest = xs ++ rest →
      s.step? numbered = some (s.keep xs rest mode) → Unended numbered (s.keep xs rest mode) →
      ∃ more mode, Run numbered s (s :: more) (s.keep s.rest [] mode) ∧
        ∀ u ∈ more, u.mode ≠ .normal := by
    intro xs rest mode hrest hstep hunended
    obtain ⟨mode', hhidden, -⟩ := hunended
    obtain ⟨more, hrun, hmore⟩ := run_of_hidden hstep hhidden
    rw [hrest]
    exact ⟨more, mode', hrun, hmore⟩
  have haux : ∀ all, Opens all → s.rest = all → ∃ more mode,
      Run numbered s (s :: more) (s.keep s.rest [] mode) ∧ ∀ u ∈ more, u.mode ≠ .normal := by
    intro all hopens hrest
    cases hopens with
    | @quoted mark rest hmark =>
      have hstep : s.step? numbered = some (s.keep [mark] rest (.quoted mark)) := by
        rw [step?_normal hmode hrest, stepNormal_quote hmark]
      refine hfrom hrest hstep ?_
      rcases quotedBody_or_closed mark rest with hin | ⟨body, post, rfl, hin, hpost⟩
      · exact ⟨.quoted mark, hidden_quotedBody hin rfl (List.append_nil _).symm, nofun⟩
      · refine absurd (Opaque.quoted hmark hin hpost) (hnever _ _ ?_)
        rw [hrest, List.cons_append, List.append_assoc]
        rfl
    | @lineComment rest =>
      have hstep : s.step? numbered =
          some (s.keep ['-'.toUInt8] ('-'.toUInt8 :: rest) .lineComment) := by
        rw [step?_normal hmode hrest, stepNormal_lineComment]
      refine hfrom hrest hstep ?_
      by_cases hline : '\n'.toUInt8 ∈ rest
      · obtain ⟨body, post, rfl, hbody⟩ := List.eq_append_cons_of_mem hline
        refine absurd (Opaque.lineComment hbody) (hnever _ post ?_)
        rw [hrest, List.cons_append, List.cons_append, List.append_assoc]
        rfl
      · have hdash : '\n'.toUInt8 ∉ '-'.toUInt8 :: rest := by
          rw [List.mem_cons, not_or]
          exact ⟨by decide, hline⟩
        exact ⟨.lineComment, hidden_lineBody hdash rfl (List.append_nil _).symm, nofun⟩
    | @blockComment rest =>
      have hstep : s.step? numbered = some (s.keep ['/'.toUInt8, '*'.toUInt8] rest
          (.blockComment 1)) := by
        rw [step?_normal hmode hrest]
        exact congrArg some stepNormal_blockComment
      refine hfrom hrest hstep (unended_comment rfl ?_)
      intro body post hbody hcomment
      have hbody : rest = body ++ post := hbody
      refine hnever ('/'.toUInt8 :: '*'.toUInt8 :: body) post ?_ (.blockComment hcomment)
      rw [hrest, hbody]
      rfl
    | @dollarQuoted tag rest htag =>
      refine hfrom hrest (step?_dollarMark hmode htag hrest) ?_
      rcases closedFirst_or_never (dollarMark tag) rest with ⟨body, post, rfl, hfirst⟩ | hnone
      · refine absurd (Opaque.dollarQuoted htag hfirst) (hnever _ post ?_)
        rw [hrest, List.append_assoc, List.append_assoc]
      · exact unended_dollarQuoted rfl hnone
  exact haux s.rest hopens rfl

end Scanner
end Statement
end SqlSession
