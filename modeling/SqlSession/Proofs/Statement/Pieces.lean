import Mathlib.Data.List.Basic
import SqlSession.Proofs.Statement.Segments
import SqlSession.Proofs.Text.Trim

/-!
# Pieces of statements

A piece is a character that stays as it is or a placeholder.  A segment is some blanks, the pieces of
its statement and some more blanks (`Part`), and the statement is one and the same list of pieces,
whether its placeholders are numbered or not (`ofSegment?_partOf`).
-/

namespace SqlSession
namespace Statement

open Text

/-! ## Distinct elements -/

section
variable {α : Type} [BEq α] [LawfulBEq α]

theorem idxOf_lt_of_filter {a b c : α} {xs : List α} (hb : b ≠ a) (hc : c ≠ a)
    (h : (xs.filter fun x => !x == a).idxOf b < (xs.filter fun x => !x == a).idxOf c) :
    xs.idxOf b < xs.idxOf c := by
  induction xs with
  | nil => exact absurd h (Nat.lt_irrefl 0)
  | cons x xs ih =>
    by_cases hx : x = a
    · subst hx
      rw [List.filter_cons_of_neg (by simp)] at h
      rw [List.idxOf_cons_ne _ hb.symm, List.idxOf_cons_ne _ hc.symm]
      exact Nat.succ_lt_succ (ih h)
    · rw [List.filter_cons_of_pos (by simp [hx])] at h
      by_cases hxb : x = b
      · subst hxb
        have hxc : x ≠ c := by
          intro heq
          subst heq
          exact absurd h (Nat.lt_irrefl _)
        rw [List.idxOf_cons_self, List.idxOf_cons_ne _ hxc]
        exact Nat.succ_pos _
      · have hxc : x ≠ c := by
          intro heq
          subst heq
          rw [List.idxOf_cons_self] at h
          exact absurd h (Nat.not_lt_zero _)
        rw [List.idxOf_cons_ne _ hxb, List.idxOf_cons_ne _ hxc] at h ⊢
        exact Nat.succ_lt_succ (ih (Nat.lt_of_succ_lt_succ h))

/-- The distinct elements stand in the order in which they first occur. -/
theorem pairwise_eraseDups (xs : List α) :
    xs.eraseDups.Pairwise fun a b => xs.idxOf a < xs.idxOf b := by
  induction hn : xs.length using Nat.strongRecOn generalizing xs with
  | _ n ih =>
    cases xs with
    | nil => exact .nil
    | cons a xs =>
      have hlength : (xs.filter fun x => !x == a).length < n := by
        have hle := List.length_filter_le (fun x => !x == a) xs
        rw [← hn, List.length_cons]
        omega
      have hne : ∀ b ∈ (xs.filter fun x => !x == a).eraseDups, b ≠ a := by
        intro b hb
        rw [List.mem_eraseDups] at hb
        simpa using (List.mem_filter.mp hb).2
      rw [List.eraseDups_cons, List.pairwise_cons]
      refine ⟨?_, ?_⟩
      · intro b hb
        rw [List.idxOf_cons_self, List.idxOf_cons_ne _ (hne b hb).symm]
        exact Nat.succ_pos _
      · refine List.Pairwise.imp_of_mem ?_ (ih _ hlength _ rfl)
        intro b c hb hc h
        rw [List.idxOf_cons_ne _ (hne b hb).symm, List.idxOf_cons_ne _ (hne c hc).symm]
        exact Nat.succ_lt_succ (idxOf_lt_of_filter (hne b hb) (hne c hc) h)

theorem nodup_eraseDups (xs : List α) : xs.eraseDups.Nodup := by
  refine (pairwise_eraseDups xs).imp ?_
  intro a b hlt heq
  subst heq
  exact absurd hlt (Nat.lt_irrefl _)

end

/-! ## Pieces -/

inductive Piece
  | verbatim (c : Char)
  | placeholder (sigil : Char) (name : List Char)
deriving DecidableEq

namespace Piece

def text : Piece → List Char
  | verbatim c => [c]
  | placeholder sigil name => sigil :: name

def name? : Piece → Option (List Char)
  | verbatim _ => none
  | placeholder _ name => some name

/-- The piece with the marker of its argument in the place of a placeholder. -/
def numbered (names : List (List Char)) : Piece → List Char
  | verbatim c => [c]
  | placeholder _ name => argument (names.idxOf name + 1)

def isBlank : Piece → Bool
  | verbatim c => Text.isBlank c
  | placeholder _ _ => false

end Piece

def occurrences (pieces : List Piece) : List (List Char) := pieces.filterMap Piece.name?

/-- A segment: a statement in pieces and the blanks around it. -/
structure Part where
  lead : List Char
  pieces : List Piece
  trail : List Char

namespace Part

def text (part : Part) : String :=
  String.ofList (part.lead ++ part.pieces.flatMap Piece.text ++ part.trail)

/-- The names of the arguments, each of them once. -/
def names (part : Part) : List (List Char) := (occurrences part.pieces).eraseDups

def plain (part : Part) : Statement := ⟨String.ofList (part.pieces.flatMap Piece.text), []⟩

/-- The statement of a part with numbers for its placeholders. -/
def numbered (part : Part) : Statement :=
  ⟨String.ofList (part.pieces.flatMap (Piece.numbered part.names)), part.names.map String.ofList⟩

end Part

/-! ## Pieces of lexemes -/

def Lexeme.pieces : Lexeme → List Piece
  | .placeholder sigil name => [.placeholder sigil name]
  | l => l.text.map .verbatim

def piecesOf (segment : List Lexeme) : List Piece := segment.flatMap Lexeme.pieces

theorem flatMap_verbatim (f : Piece → List Char) (hf : ∀ c, f (.verbatim c) = [c])
    (cs : List Char) : (cs.map Piece.verbatim).flatMap f = cs := by
  rw [List.flatMap_map, funext hf, List.flatMap_singleton']

theorem Lexeme.text_pieces (l : Lexeme) : l.pieces.flatMap Piece.text = l.text := by
  cases l with
  | placeholder sigil name => exact List.append_nil _
  | verbatim _ _ | separator | plain _ => exact flatMap_verbatim Piece.text (fun _ => rfl) _

theorem Lexeme.numbered_pieces (names : List (List Char)) (l : Lexeme) :
    l.pieces.flatMap (Piece.numbered names) = l.renderWith names := by
  cases l with
  | placeholder sigil name => exact List.append_nil _
  | verbatim _ _ | separator | plain _ =>
    exact flatMap_verbatim (Piece.numbered names) (fun _ => rfl) _

theorem text_piecesOf (segment : List Lexeme) :
    (piecesOf segment).flatMap Piece.text = segmentText segment := by
  rw [piecesOf, List.flatMap_assoc, funext Lexeme.text_pieces]
  rfl

theorem numbered_piecesOf (names : List (List Char)) (segment : List Lexeme) :
    (piecesOf segment).flatMap (Piece.numbered names) =
      segment.flatMap (Lexeme.renderWith names) := by
  rw [piecesOf, List.flatMap_assoc, funext (Lexeme.numbered_pieces names)]

theorem occurrences_piecesOf (segment : List Lexeme) :
    occurrences (piecesOf segment) = segment.filterMap Lexeme.name? := by
  unfold occurrences piecesOf
  induction segment with
  | nil => rfl
  | cons l segment ih =>
    rw [List.flatMap_cons, List.filterMap_append, ih]
    cases l with
    | placeholder sigil name => rfl
    | verbatim _ _ | separator | plain _ =>
      have hnone : ∀ cs : List Char, (cs.map Piece.verbatim).filterMap Piece.name? = [] := by
        intro cs
        rw [List.filterMap_eq_nil_iff]
        intro piece hpiece
        obtain ⟨c, -, rfl⟩ := List.mem_map.mp hpiece
        rfl
      exact congrArg (· ++ _) (hnone _)

/-! ## Trimming -/

/-- The rendering has something for every piece, and blanks for blank pieces only. -/
def Faithful (f : Piece → List Char) (pieces : List Piece) : Prop :=
  ∀ piece ∈ pieces, f piece ≠ [] ∧ ∀ c ∈ f piece, Text.isBlank c = piece.isBlank

variable {f : Piece → List Char} {pieces : List Piece}

theorem Faithful.mono (h : Faithful f pieces) {others : List Piece}
    (hsub : ∀ piece ∈ others, piece ∈ pieces) : Faithful f others :=
  fun piece hpiece => h piece (hsub piece hpiece)

theorem Faithful.blank (h : Faithful f pieces) (hblank : ∀ piece ∈ pieces, piece.isBlank = true) :
    ∀ c ∈ pieces.flatMap f, Text.isBlank c = true := by
  intro c hc
  obtain ⟨piece, hpiece, hc⟩ := List.mem_flatMap.mp hc
  rw [(h piece hpiece).2 c hc, hblank piece hpiece]

theorem Faithful.bare (h : Faithful f pieces) (hbare : Bare Piece.isBlank pieces) :
    Bare Text.isBlank (pieces.flatMap f) := by
  obtain ⟨hhead, hlast⟩ := hbare
  constructor
  · cases pieces with
    | nil => rfl
    | cons piece others =>
      obtain ⟨hne, hchars⟩ := h piece List.mem_cons_self
      have hpiece : piece.isBlank = false := hhead
      rw [List.flatMap_cons, List.head?_append_of_ne_nil _ hne, List.head?_eq_some_head hne,
        Option.any_some, hchars _ (List.head_mem hne), hpiece]
  · rcases List.eq_nil_or_concat pieces with rfl | ⟨others, piece, rfl⟩
    · rfl
    · rw [List.concat_eq_append] at h hlast ⊢
      obtain ⟨hne, hchars⟩ := h piece (List.mem_append_right _ List.mem_cons_self)
      have hpiece : piece.isBlank = false := by
        rw [List.getLast?_concat] at hlast
        exact hlast
      rw [List.flatMap_append, List.flatMap_singleton, List.getLast?_append,
        List.getLast?_eq_some_getLast hne, Option.some_or, Option.any_some,
        hchars _ (List.getLast_mem hne), hpiece]

/-- The pieces can be trimmed before they are rendered. -/
theorem Faithful.trimBlanks (h : Faithful f pieces) :
    trimBlanks (pieces.flatMap f) = (trimEnds Piece.isBlank pieces).flatMap f := by
  have hpieces := leading_trimEnds_trailing Piece.isBlank pieces
  have hpart : ∀ {others : List Piece},
      (∀ piece ∈ others, piece ∈ leading Piece.isBlank pieces ++ trimEnds Piece.isBlank pieces ++
        trailing Piece.isBlank pieces) → Faithful f others := by
    intro others hsub
    rw [hpieces] at hsub
    exact h.mono hsub
  have hlead : Faithful f (leading Piece.isBlank pieces) := hpart fun piece hpiece =>
    List.mem_append_left _ (List.mem_append_left _ hpiece)
  have hmiddle : Faithful f (trimEnds Piece.isBlank pieces) := hpart fun piece hpiece =>
    List.mem_append_left _ (List.mem_append_right _ hpiece)
  have htrail : Faithful f (trailing Piece.isBlank pieces) := hpart fun piece hpiece =>
    List.mem_append_right _ hpiece
  have hflat : pieces.flatMap f = (leading Piece.isBlank pieces).flatMap f ++
      (trimEnds Piece.isBlank pieces).flatMap f ++ (trailing Piece.isBlank pieces).flatMap f := by
    rw [← List.flatMap_append, ← List.flatMap_append, hpieces]
  rw [trimBlanks_eq, hflat]
  exact trimEnds_append (hlead.blank fun piece hpiece => of_mem_leading hpiece)
    (htrail.blank fun piece hpiece => of_mem_trailing hpiece)
    (hmiddle.bare (bare_trimEnds Piece.isBlank pieces))

theorem Faithful.isEmpty (h : Faithful f pieces) : (pieces.flatMap f).isEmpty = pieces.isEmpty := by
  cases pieces with
  | nil => rfl
  | cons piece others =>
    have hne := (h piece List.mem_cons_self).1
    rw [List.flatMap_cons, List.isEmpty_cons, List.isEmpty_eq_false_iff]
    exact fun hnil => hne (List.append_eq_nil_iff.mp hnil).1

theorem faithful_numbered (names : List (List Char)) (pieces : List Piece) :
    Faithful (Piece.numbered names) pieces := by
  rintro (c | ⟨sigil, name⟩) -
  · refine ⟨List.cons_ne_nil _ _, ?_⟩
    intro d hd
    rw [List.mem_singleton.mp hd]
    rfl
  · refine ⟨List.cons_ne_nil _ _, ?_⟩
    intro c hc
    rcases List.mem_cons.mp hc with rfl | hdigit
    · exact not_isBlank (by decide) (by decide)
    · have hname : c.isDigit = true := Nat.isDigit_of_mem_toDigits (by decide) (by decide) hdigit
      refine not_isBlank_of_isNameChar ?_
      rw [isNameChar, Char.isAlphanum, hname, Bool.or_true, Bool.true_or]

theorem placeholder_of_mem_scan {before : Option Char} {cs : List Char} {sigil : Char}
    {name : List Char} (h : .placeholder sigil name ∈ Lexeme.scan before cs) :
    (sigil = '@' ∨ sigil = ':') ∧ ∀ c ∈ name, isNameChar c = true := by
  obtain ⟨xs, ys, hscan⟩ := List.append_of_mem h
  obtain ⟨c, rest, -, hnext⟩ := Lexeme.next_of_suffix hscan
  obtain ⟨rfl, hsigil, -, rfl⟩ := Lexeme.placeholder_of_next hnext
  exact ⟨hsigil, fun c hc => List.mem_takeWhile_imp hc⟩

theorem placeholder_mem_pieces {l : Lexeme} {sigil : Char} {name : List Char}
    (h : .placeholder sigil name ∈ l.pieces) : l = .placeholder sigil name := by
  cases l with
  | placeholder sigil' name' =>
    cases List.mem_singleton.mp h
    rfl
  | verbatim _ _ | separator | plain _ =>
    obtain ⟨c, -, hc⟩ := List.mem_map.mp h
    cases hc

theorem faithful_text {before : Option Char} {cs : List Char} {segment : List Lexeme}
    (h : ∀ l ∈ segment, l ∈ Lexeme.scan before cs) : Faithful Piece.text (piecesOf segment) := by
  rintro (c | ⟨sigil, name⟩) hpiece
  · refine ⟨List.cons_ne_nil _ _, ?_⟩
    intro d hd
    rw [List.mem_singleton.mp hd]
    rfl
  · obtain ⟨l, hl, hpiece⟩ := List.mem_flatMap.mp hpiece
    obtain rfl := placeholder_mem_pieces hpiece
    obtain ⟨hsigil, hname⟩ := placeholder_of_mem_scan (h _ hl)
    refine ⟨List.cons_ne_nil _ _, ?_⟩
    intro c hc
    rcases List.mem_cons.mp hc with rfl | hc
    · rcases hsigil with rfl | rfl
      · exact not_isBlank (by decide) (by decide)
      · exact not_isBlank (by decide) (by decide)
    · exact not_isBlank_of_isNameChar (hname c hc)

/-! ## Parts -/

def partOf (segment : List Lexeme) : Part :=
  ⟨(leading Piece.isBlank (piecesOf segment)).flatMap Piece.text,
    trimEnds Piece.isBlank (piecesOf segment),
    (trailing Piece.isBlank (piecesOf segment)).flatMap Piece.text⟩

theorem text_partOf (segment : List Lexeme) : (partOf segment).text = segmentString segment := by
  refine congrArg String.ofList ?_
  show (leading Piece.isBlank (piecesOf segment)).flatMap Piece.text ++
    (trimEnds Piece.isBlank (piecesOf segment)).flatMap Piece.text ++
    (trailing Piece.isBlank (piecesOf segment)).flatMap Piece.text = _
  rw [← List.flatMap_append, ← List.flatMap_append, leading_trimEnds_trailing, text_piecesOf]

theorem isBlank_of_blank (h : ∀ piece ∈ pieces, piece.isBlank = true) :
    ∀ c ∈ pieces.flatMap Piece.text, Text.isBlank c = true := by
  intro c hc
  obtain ⟨piece, hpiece, hc⟩ := List.mem_flatMap.mp hc
  cases piece with
  | verbatim d =>
    rw [List.mem_singleton.mp hc]
    exact h _ hpiece
  | placeholder sigil name => exact absurd (h _ hpiece) Bool.false_ne_true

theorem occurrences_blank (h : ∀ piece ∈ pieces, piece.isBlank = true) :
    occurrences pieces = [] := by
  refine List.filterMap_eq_nil_iff.mpr ?_
  rintro (c | ⟨sigil, name⟩) hpiece
  · rfl
  · exact absurd (h _ hpiece) Bool.false_ne_true

/-- No name is lost with the blanks. -/
theorem names_partOf (segment : List Lexeme) :
    (partOf segment).names = placeholderNames segment := by
  have hall := congrArg occurrences (leading_trimEnds_trailing Piece.isBlank (piecesOf segment))
  have happend : ∀ xs ys : List Piece, occurrences (xs ++ ys) = occurrences xs ++ occurrences ys :=
    fun xs ys => List.filterMap_append
  have hlead : occurrences (leading Piece.isBlank (piecesOf segment)) = [] :=
    occurrences_blank fun piece hpiece => of_mem_leading hpiece
  have htrail : occurrences (trailing Piece.isBlank (piecesOf segment)) = [] :=
    occurrences_blank fun piece hpiece => of_mem_trailing hpiece
  rw [happend, happend, hlead, htrail, List.nil_append, List.append_nil,
    occurrences_piecesOf] at hall
  unfold Part.names placeholderNames
  rw [← hall]
  rfl

/-- A segment has the statement of its part, with or without numbers. -/
theorem ofSegment?_partOf {before : Option Char} {cs : List Char} {segment : List Lexeme}
    (h : ∀ l ∈ segment, l ∈ Lexeme.scan before cs) (numbered : Bool) :
    ofSegment? numbered segment =
      if (partOf segment).pieces.isEmpty then none
      else some (if numbered then (partOf segment).numbered else (partOf segment).plain) := by
  have hrender : ∀ f : Piece → List Char, Faithful f (piecesOf segment) →
      trimBlanks ((piecesOf segment).flatMap f) = (partOf segment).pieces.flatMap f ∧
        (trimBlanks ((piecesOf segment).flatMap f)).isEmpty = (partOf segment).pieces.isEmpty := by
    intro f hf
    have hmiddle : Faithful f (partOf segment).pieces := hf.mono fun piece hpiece => by
      rw [← leading_trimEnds_trailing Piece.isBlank (piecesOf segment)]
      exact List.mem_append_left _ (List.mem_append_right _ hpiece)
    refine ⟨hf.trimBlanks, ?_⟩
    rw [hf.trimBlanks]
    exact hmiddle.isEmpty
  cases numbered with
  | false =>
    obtain ⟨htext, hempty⟩ := hrender Piece.text (faithful_text h)
    rw [text_piecesOf] at htext hempty
    simp only [ofSegment?, if_false, Bool.false_eq_true, List.map_nil]
    rw [hempty, htext]
    rfl
  | true =>
    obtain ⟨htext, hempty⟩ := hrender (Piece.numbered (placeholderNames segment))
      (faithful_numbered _ _)
    rw [numbered_piecesOf] at htext hempty
    simp only [ofSegment?, if_true, numberedText]
    rw [hempty, htext, ← names_partOf]
    rfl

end Statement
end SqlSession
