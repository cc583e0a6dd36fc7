import Mathlib.Data.List.Induction
import SqlSession.Proofs.Statement.Scanner

/-!
# Chunks of segments

The scanner writes a chunk lexeme by lexeme and numbers every placeholder by the names it has met so
far.  The statement of a segment is numbered by all names of the segment.  Both are the same, because
a name keeps the number that it gets where it first occurs (`foldl_write_numbered`).
-/

namespace SqlSession
namespace Statement

open Text

theorem utf8_inj {cs ds : List Char} : utf8 cs = utf8 ds ↔ cs = ds := by
  constructor
  · intro h
    have hdecode := congrArg decode? h
    rw [decode?_utf8, decode?_utf8] at hdecode
    exact String.ofList_inj.mp (Option.some.inj hdecode)
  · intro heq
    subst heq
    rfl

def chunkOf (numbered : Bool) (segment : List Lexeme) : Chunk :=
  if numbered then ⟨utf8 (numberedText segment), (placeholderNames segment).map utf8⟩
  else ⟨utf8 (segmentText segment), []⟩

/-! ## Names -/

theorem placeholderNames_append (segment : List Lexeme) (sigil : Char) (name : List Char) :
    placeholderNames (segment ++ [.placeholder sigil name]) =
      if name ∈ placeholderNames segment then placeholderNames segment
      else placeholderNames segment ++ [name] := by
  have happend : (segment ++ [Lexeme.placeholder sigil name]).filterMap Lexeme.name? =
      segment.filterMap Lexeme.name? ++ [name] := by
    rw [List.filterMap_append]
    rfl
  have hremove : ∀ names : List (List Char),
      ([name].removeAll names).eraseDups = if name ∈ names then [] else [name] := by
    intro names
    by_cases hname : name ∈ names
    · simp [List.removeAll, hname]
    · simp [List.removeAll, hname, List.eraseDups_cons]
  rw [placeholderNames, happend, List.eraseDups_append, hremove]
  simp only [placeholderNames, List.mem_eraseDups]
  split
  · rw [List.append_nil]
  · rfl

theorem placeholderNames_append_other (segment : List Lexeme) {l : Lexeme} (h : l.name? = none) :
    placeholderNames (segment ++ [l]) = placeholderNames segment := by
  unfold placeholderNames
  rw [List.filterMap_append, List.filterMap_cons_none h, List.filterMap_nil, List.append_nil]

/-- The names of the first part of a segment come first. -/
theorem placeholderNames_le (segment : List Lexeme) (l : Lexeme) :
    placeholderNames segment <+: placeholderNames (segment ++ [l]) := by
  cases l with
  | placeholder sigil name =>
    rw [placeholderNames_append]
    split
    · exact List.prefix_rfl
    · exact List.prefix_append _ _
  | verbatim _ _ | separator | plain _ =>
    refine ⟨[], ?_⟩
    rw [List.append_nil, placeholderNames_append_other segment rfl]

theorem idxOf_map_utf8 (name : List Char) (names : List (List Char)) :
    (names.map utf8).idxOf (utf8 name) = names.idxOf name := by
  induction names with
  | nil => rfl
  | cons first names ih =>
    rw [List.map_cons, List.idxOf_cons, List.idxOf_cons, ih]
    by_cases hname : first = name
    · rw [hname, beq_self_eq_true, beq_self_eq_true]
    · have hbytes : utf8 first ≠ utf8 name := fun h => hname (utf8_inj.mp h)
      rw [beq_eq_false_iff_ne.mpr hname, beq_eq_false_iff_ne.mpr hbytes]

theorem mem_map_utf8 {name : List Char} {names : List (List Char)} :
    utf8 name ∈ names.map utf8 ↔ name ∈ names := by
  constructor
  · intro h
    obtain ⟨other, hother, heq⟩ := List.mem_map.mp h
    exact utf8_inj.mp heq ▸ hother
  · exact fun h => List.mem_map_of_mem h

theorem idxOf_of_prefix {names all : List (List Char)} (h : names <+: all) {name : List Char}
    (hname : name ∈ names) : all.idxOf name = names.idxOf name := by
  obtain ⟨more, rfl⟩ := h
  rw [List.idxOf_append, if_pos hname]

/-! ## Writing a segment -/

theorem foldl_write_plain (segment : List Lexeme) (chunk : Chunk) :
    segment.foldl (Chunk.write false) chunk =
      ⟨chunk.text ++ utf8 (segmentText segment), chunk.names⟩ := by
  induction segment generalizing chunk with
  | nil => rw [segmentText, List.flatMap_nil, utf8_nil, List.append_nil]; rfl
  | cons l segment ih =>
    have hwrite : Chunk.write false chunk l = ⟨chunk.text ++ utf8 l.text, chunk.names⟩ := by
      cases l <;> rfl
    rw [List.foldl_cons, ih, hwrite, segmentText, segmentText, List.flatMap_cons, utf8_append,
      List.append_assoc]

/-- Placeholders can be numbered by all names of a segment instead of those met so far. -/
theorem foldl_write_prefix (segment : List Lexeme) {all : List (List Char)}
    (h : placeholderNames segment <+: all) :
    segment.foldl (Chunk.write true) ⟨[], []⟩ =
      ⟨utf8 (segment.flatMap (Lexeme.renderWith all)), (placeholderNames segment).map utf8⟩ := by
  induction segment using List.reverseRecOn with
  | nil => rfl
  | append_singleton segment l ih =>
    rw [List.foldl_append, ih ((placeholderNames_le segment l).trans h), List.foldl_cons,
      List.foldl_nil, List.flatMap_append, List.flatMap_singleton, utf8_append]
    cases l with
    | placeholder sigil name =>
      have hnames : (if utf8 name ∈ (placeholderNames segment).map utf8
          then (placeholderNames segment).map utf8
          else (placeholderNames segment).map utf8 ++ [utf8 name]) =
          (placeholderNames (segment ++ [.placeholder sigil name])).map utf8 := by
        rw [placeholderNames_append]
        by_cases hname : name ∈ placeholderNames segment
        · rw [if_pos hname, if_pos (mem_map_utf8.mpr hname)]
        · rw [if_neg hname, if_neg (mt mem_map_utf8.mp hname), List.map_append]
          rfl
      have hmem : name ∈ placeholderNames (segment ++ [.placeholder sigil name]) := by
        rw [placeholderNames_append]
        split
        · assumption
        · exact List.mem_append_right _ List.mem_cons_self
      simp only [Chunk.write, if_true, hnames, idxOf_map_utf8, Lexeme.renderWith,
        idxOf_of_prefix h hmem]
    | verbatim _ _ | separator | plain _ =>
      rw [placeholderNames_append_other segment rfl]
      rfl

theorem foldl_write (numbered : Bool) (segment : List Lexeme) :
    segment.foldl (Chunk.write numbered) ⟨[], []⟩ = chunkOf numbered segment := by
  cases numbered with
  | true => exact foldl_write_prefix segment List.prefix_rfl
  | false => exact foldl_write_plain segment ⟨[], []⟩

/-! ## Statements of chunks -/

theorem mapM_decode? (names : List (List Char)) :
    (names.map utf8).mapM decode? = some (names.map String.ofList) := by
  induction names with
  | nil => rfl
  | cons name names ih =>
    rw [List.map_cons, List.mapM_cons, decode?_utf8, ih]
    rfl

/-- The bytes of a chunk always are the bytes of a text, so nothing has to be replaced in it, and
the statement of the chunk is the one of its segment. -/
theorem statement?_chunkOf (numbered : Bool) (segment : List Lexeme) :
    (chunkOf numbered segment).statement? = ofSegment? numbered segment := by
  have haux : ∀ (text : List Char) (names : List (List Char)),
      (Chunk.mk (utf8 text) (names.map utf8)).statement? =
        if (trimBlanks text).isEmpty then none
        else some ⟨String.ofList (trimBlanks text), names.map String.ofList⟩ := by
    intro text names
    have htrim : Text.trim (String.ofList text) = String.ofList (trimBlanks text) := by
      rw [Text.trim, String.toList_ofList]
    have hempty : (String.ofList (trimBlanks text)).isEmpty = (trimBlanks text).isEmpty := by
      rw [Bool.eq_iff_iff]
      simp
    simp only [Chunk.statement?, decode?_utf8, mapM_decode?, bind, Option.bind_some, htrim, hempty]
  cases numbered with
  | true => exact haux (numberedText segment) (placeholderNames segment)
  | false => exact haux (segmentText segment) []

end Statement
end SqlSession
