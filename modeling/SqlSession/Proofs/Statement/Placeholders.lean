import SqlSession.Proofs.Statement.Lossless
import SqlSession.Proofs.Statement.Pieces

/-!
# Numbered statements

Numbering changes nothing but the placeholders.  Every statement is a list of pieces, of which the
placeholders are those that the scanner meets in the normal mode, and with numbers it is the same
list with `$1`, `$2` and so on in their places (`split_in_pieces`).
-/

namespace SqlSession
namespace Statement

open Text

/-! ## Where placeholders are -/

/-- When it has passed so many bytes the scanner meets a placeholder in the normal mode: a sigil that
is not attached to what stands before it, and a name that goes as far as it can. -/
def PlaceholderAt (numbered : Bool) (sql : String) (n : Nat) (sigil : Char) (name : List Char) :
    Prop :=
  (sigil = '@' ∨ sigil = ':') ∧
    ∃ u rest, Scanner.Reaches numbered (.start sql.toUTF8.data.toList) u ∧ u.mode = .normal ∧
      u.passed.length = n ∧ u.rest = sigil.toUInt8 :: rest ∧
      Scanner.opensPlaceholder u.passed sigil.toUInt8 rest = true ∧
      utf8 name = rest.takeWhile isNameByte

/-- The same among the pieces of a text. -/
def PlaceholderIn (parts : List Part) (n : Nat) (sigil : Char) (name : List Char) : Prop :=
  ∃ before part after xs ys, parts = before ++ part :: after ∧
    part.pieces = xs ++ .placeholder sigil name :: ys ∧
    n = (String.join (before.map fun other => other.text ++ ";") ++
      String.ofList (part.lead ++ xs.flatMap Piece.text)).utf8ByteSize

theorem agrees_segmentText (pre : List Lexeme) :
    Agrees ((segmentText pre).getLast?.or none) (utf8 (segmentText pre)) := by
  by_cases hpre : segmentText pre = []
  · rw [hpre]
    exact agrees_nil
  · rw [Option.or_none]
    exact agrees_append hpre []

theorem placeholderAt_iff (numbered : Bool) (sql : String) (n : Nat) (sigil : Char)
    (name : List Char) :
    PlaceholderAt numbered sql n sigil name ↔
      ∃ pre post, Lexeme.scan none sql.toList = pre ++ .placeholder sigil name :: post ∧
        n = (utf8 (segmentText pre)).length := by
  constructor
  · intro hgiven
    obtain ⟨hsigil, u, rest, hreaches, hmode, rfl, hurest, hopens, hname⟩ := hgiven
    have hascii : sigil.toNat < 128 := by rcases hsigil with rfl | rfl <;> decide
    have hloud : ¬ u.Quiet := by
      intro hquiet
      obtain ⟨-, hat, hcolon⟩ := hquiet hmode sigil.toUInt8 (by rw [hurest]; rfl)
      rcases hsigil with rfl | rfl
      · exact hat rfl
      · exact hcolon rfl
    obtain ⟨pre, l, post, hscan, hpassed, hlrest⟩ := Scanner.lexeme_of_reaches hreaches hloud
    obtain ⟨c, tail, htext, hl⟩ := Lexeme.next_of_suffix hscan
    have hbytes : utf8 (c :: tail) = sigil.toUInt8 :: rest := by
      rw [← htext, ← hlrest, hurest]
    obtain rfl : c = sigil := by
      have hhead := (head?_utf8 hascii (c :: tail)).mp (by rw [hbytes]; rfl)
      exact Option.some.inj hhead
    rw [utf8_cons_ascii hascii] at hbytes
    obtain rfl : utf8 tail = rest := (List.cons.inj hbytes).2
    rw [hpassed, (agrees_segmentText pre).opensPlaceholder hsigil] at hopens
    rw [Lexeme.next_sigil hsigil, if_pos hopens] at hl
    have htake : (utf8 tail).takeWhile isNameByte = utf8 (tail.takeWhile isNameChar) :=
      asciiOnly_isNameChar.takeWhile tail
    rw [htake, utf8_inj] at hname
    subst hname hl
    exact ⟨pre, post, hscan, congrArg List.length hpassed⟩
  · intro hgiven
    obtain ⟨pre, post, hscan, rfl⟩ := hgiven
    obtain ⟨u, hreaches, hmode, hpassed, hrest⟩ := Scanner.reaches_lexeme numbered hscan
    obtain ⟨c, tail, htext, hl⟩ := Lexeme.next_of_suffix hscan
    obtain ⟨rfl, hsigil, hopens, rfl⟩ := Lexeme.placeholder_of_next hl
    have hascii : sigil.toNat < 128 := by rcases hsigil with rfl | rfl <;> decide
    refine ⟨hsigil, u, utf8 tail, hreaches, hmode, congrArg List.length hpassed, ?_, ?_, ?_⟩
    · rw [hrest, htext, utf8_cons_ascii hascii]
    · rw [hpassed, (agrees_segmentText pre).opensPlaceholder hsigil, hopens]
    · exact (asciiOnly_isNameChar.takeWhile tail).symm

/-! ## Pieces of the whole text -/

/-- A placeholder among the pieces is one among the lexemes. -/
theorem piecesOf_eq_append {segment : List Lexeme} {as bs : List Piece} {sigil : Char}
    {name : List Char} (h : piecesOf segment = as ++ .placeholder sigil name :: bs) :
    ∃ xs ys, segment = xs ++ .placeholder sigil name :: ys ∧ piecesOf xs = as := by
  induction segment generalizing as with
  | nil => cases as <;> cases h
  | cons l segment ih =>
    have hcons : ∀ ls, piecesOf (l :: ls) = l.pieces ++ piecesOf ls := fun ls => List.flatMap_cons
    rw [hcons] at h
    rcases List.append_eq_append_iff.mp h with ⟨as', rfl, hrest⟩ | ⟨bs', hl, hrest⟩
    · obtain ⟨xs, ys, rfl, rfl⟩ := ih hrest
      exact ⟨l :: xs, ys, rfl, hcons xs⟩
    · -- The placeholder is a piece of the first lexeme, unless it is the first of the others.
      cases bs' with
      | nil =>
        obtain ⟨xs, ys, rfl, hxs⟩ := @ih [] hrest.symm
        refine ⟨l :: xs, ys, rfl, ?_⟩
        rw [hcons, hxs, hl]
        simp only [List.append_nil]
      | cons piece bs' =>
        obtain ⟨rfl, -⟩ := List.cons.inj hrest
        obtain rfl := placeholder_mem_pieces (hl ▸ List.mem_append_right _ List.mem_cons_self)
        cases as with
        | nil => exact ⟨[], segment, rfl, rfl⟩
        | cons _ as => cases as <;> cases hl

theorem join_closed (before : List (List Lexeme)) :
    String.join ((before.map partOf).map fun part => part.text ++ ";") =
      segmentString (closed before) := by
  induction before with
  | nil => rfl
  | cons first before ih =>
    have hsemicolon : segmentText (.separator :: closed before) =
        ';' :: segmentText (closed before) := segmentText_cons _ _
    rw [List.map_cons, List.map_cons, String.join_cons, ih, text_partOf, closed_cons,
      ← String.toList_inj, String.toList_append, String.toList_append, toList_segmentString,
      toList_segmentString, toList_segmentString, segmentText_append, hsemicolon]
    exact List.append_assoc _ _ _

theorem placeholderIn_iff (ls : List Lexeme) (n : Nat) (sigil : Char) (name : List Char) :
    PlaceholderIn ((segments ls).map partOf) n sigil name ↔
      ∃ pre post, ls = pre ++ .placeholder sigil name :: post ∧
        n = (utf8 (segmentText pre)).length := by
  have hsize : ∀ {before : List (List Lexeme)} {xs : List Lexeme} {text : List Char},
      segmentText xs = text →
      (String.join ((before.map partOf).map fun part => part.text ++ ";") ++
        String.ofList text).utf8ByteSize = (utf8 (segmentText (closed before ++ xs))).length := by
    intro before xs _ heq
    subst heq
    have htext : String.ofList (segmentText (closed before ++ xs)) =
        segmentString (closed before) ++ String.ofList (segmentText xs) := by
      rw [segmentText_append, String.ofList_append]
      rfl
    rw [join_closed, length_utf8, htext]
  constructor
  · intro hgiven
    obtain ⟨before, part, after, xs, ys, hparts, hpieces, rfl⟩ := hgiven
    obtain ⟨front, back, hsegments, rfl, hback⟩ := List.map_eq_append_iff.mp hparts
    obtain ⟨segment, others, rfl, rfl, -⟩ := List.map_eq_cons_iff.mp hback
    obtain ⟨-, more, hls, -⟩ := segments_eq_append hsegments
    have hall := (leading_trimEnds_trailing Piece.isBlank (piecesOf segment)).symm
    have hmiddle : trimEnds Piece.isBlank (piecesOf segment) = _ := hpieces
    rw [hmiddle, List.append_assoc, List.append_assoc, ← List.append_assoc] at hall
    obtain ⟨pre, post, rfl, hpre⟩ := piecesOf_eq_append hall
    refine ⟨closed front ++ pre, post ++ more, ?_, hsize ?_⟩
    · rw [hls, List.append_assoc, List.append_assoc]
      rfl
    · rw [← text_piecesOf, hpre, List.flatMap_append]
      rfl
  · intro hgiven
    obtain ⟨pre, post, rfl, rfl⟩ := hgiven
    obtain ⟨before, xs, ys, after, hsegments, rfl⟩ :=
      @exists_segment pre (.placeholder sigil name) nofun post
    have hpieces : piecesOf (xs ++ .placeholder sigil name :: ys) =
        piecesOf xs ++ .placeholder sigil name :: piecesOf ys := List.flatMap_append
    have hblank : (Piece.placeholder sigil name).isBlank = false := rfl
    refine ⟨before.map partOf, partOf (xs ++ .placeholder sigil name :: ys), after.map partOf,
      (piecesOf xs).dropWhile Piece.isBlank,
      ((piecesOf ys).reverse.dropWhile Piece.isBlank).reverse, ?_, ?_, (hsize ?_).symm⟩
    · rw [hsegments, List.map_append]
      rfl
    · show trimEnds Piece.isBlank _ = _
      rw [hpieces, trimEnds_append_cons hblank]
    · show _ = (leading Piece.isBlank _).flatMap Piece.text ++ _
      rw [hpieces, leading, (takeWhile_append_cons hblank _ _).1, ← List.flatMap_append,
        List.takeWhile_append_dropWhile, text_piecesOf]

/-! ## Statements in pieces -/

theorem split_parts (numbered : Bool) (sql : String) :
    split numbered sql =
      (((segments (Lexeme.scan none sql.toList)).map partOf).filter
        fun part => !part.pieces.isEmpty).map
          fun part => if numbered then part.numbered else part.plain := by
  have hmem : ∀ segment ∈ segments (Lexeme.scan none sql.toList), ∀ l ∈ segment,
      l ∈ Lexeme.scan none sql.toList := by
    intro segment hsegment l hl
    obtain ⟨before, after, hsegments⟩ := List.append_of_mem hsegment
    obtain ⟨-, more, hscan, -⟩ := segments_eq_append hsegments
    rw [hscan]
    exact List.mem_append_right _ (List.mem_append_left _ hl)
  have hall : ∀ segs : List (List Lexeme),
      (∀ segment ∈ segs, ∀ l ∈ segment, l ∈ Lexeme.scan none sql.toList) →
      segs.filterMap (ofSegment? numbered) =
        ((segs.map partOf).filter fun part => !part.pieces.isEmpty).map
          fun part => if numbered then part.numbered else part.plain := by
    intro segs hsegs
    induction segs with
    | nil => rfl
    | cons first others ih =>
      have hothers := ih fun segment hsegment => hsegs segment (List.mem_cons_of_mem first hsegment)
      rw [List.filterMap_cons, ofSegment?_partOf (hsegs first List.mem_cons_self), List.map_cons,
        List.filter_cons]
      cases (partOf first).pieces.isEmpty with
      | true => exact hothers
      | false => exact congrArg _ hothers
  exact hall _ hmem

/-- A text falls into parts with semicolons between them, and each part into blanks and pieces.  The
statements are the parts that have pieces, as they are written or with the number of its name for
each placeholder.  The names of a statement are distinct and in the order in which they first occur,
and the placeholders are those that the scanner meets in the normal mode. -/
theorem split_in_pieces (sql : String) :
    ∃ parts : List Part,
      sql = ";".intercalate (parts.map Part.text) ∧
      (∀ part ∈ parts, ∀ c ∈ part.lead ++ part.trail, isBlank c = true) ∧
      split false sql = (parts.filter fun part => !part.pieces.isEmpty).map Part.plain ∧
      split true sql = (parts.filter fun part => !part.pieces.isEmpty).map Part.numbered ∧
      (∀ part ∈ parts, part.names.Nodup ∧
        (∀ name, name ∈ part.names ↔ name ∈ occurrences part.pieces) ∧
        part.names.Pairwise fun a b =>
          (occurrences part.pieces).idxOf a < (occurrences part.pieces).idxOf b) ∧
      ∀ numbered, Scanner.parse numbered sql = split numbered sql ∧
        ∀ n sigil name,
          PlaceholderAt numbered sql n sigil name ↔ PlaceholderIn parts n sigil name := by
  refine ⟨(segments (Lexeme.scan none sql.toList)).map partOf, ?_, ?_, split_parts false sql,
    split_parts true sql, ?_, ?_⟩
  · have htext : Part.text ∘ partOf = segmentString := funext text_partOf
    rw [List.map_map, htext, intercalate_segments,
      ← String.toList_inj, toList_segmentString, segmentText_scan]
  · intro part hpart c hc
    obtain ⟨segment, -, rfl⟩ := List.mem_map.mp hpart
    rcases List.mem_append.mp hc with hlead | htrail
    · exact isBlank_of_blank (fun piece hpiece => of_mem_leading hpiece) c hlead
    · exact isBlank_of_blank (fun piece hpiece => of_mem_trailing hpiece) c htrail
  · intro part _
    exact ⟨nodup_eraseDups _, fun _ => List.mem_eraseDups, pairwise_eraseDups _⟩
  · intro numbered
    refine ⟨Scanner.parse_eq_split numbered sql, ?_⟩
    intro n sigil name
    rw [placeholderAt_iff, placeholderIn_iff]

end Statement
end SqlSession
