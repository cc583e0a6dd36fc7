import SqlSession.Statement.Lexeme
import SqlSession.Text.Blank

/-!
# Statements of an SQL text

A text is cut at its semicolons into segments.  A segment with more than blanks in it is a
statement.  Its placeholders can be numbered: equal names share a number, and the numbers start
from one in each statement.
-/

namespace SqlSession

/-- A statement as it is sent, and the names of the arguments `$1`, `$2` and so on. -/
structure Statement where
  sql : String
  names : List String
deriving DecidableEq, Repr

namespace Statement

/-- The lexemes between the separators.  There is one segment more than there are separators. -/
def segments : List Lexeme → List (List Lexeme)
  | [] => [[]]
  | .separator :: rest => [] :: segments rest
  | lexeme :: rest =>
    match segments rest with
    | [] => [[lexeme]]
    | first :: others => (lexeme :: first) :: others

/-- The name of a placeholder. -/
def Lexeme.name? : Lexeme → Option (List Char)
  | .placeholder _ name => some name
  | _ => none

/-- The distinct names of the placeholders of a segment, in the order in which they first occur. -/
def placeholderNames (segment : List Lexeme) : List (List Char) :=
  (segment.filterMap Lexeme.name?).eraseDups

/-- The marker of the argument with this number. -/
def argument (number : Nat) : List Char :=
  '$' :: Nat.toDigits 10 number

/-- A lexeme with a placeholder of one of the names replaced by the marker of its argument. -/
def Lexeme.renderWith (names : List (List Char)) : Lexeme → List Char
  | .placeholder _ name => argument (names.idxOf name + 1)
  | lexeme => lexeme.text

/-- A segment as it is written. -/
def segmentText (segment : List Lexeme) : List Char :=
  segment.flatMap Lexeme.text

/-- A segment with its placeholders numbered. -/
def numberedText (segment : List Lexeme) : List Char :=
  segment.flatMap (Lexeme.renderWith (placeholderNames segment))

/-- The statement of a segment, unless the segment is blank.  If placeholders are not to be
numbered they stay as they are and the statement has no names. -/
def ofSegment? (numbered : Bool) (segment : List Lexeme) : Option Statement :=
  let text := Text.trimBlanks (if numbered then numberedText segment else segmentText segment)
  let names := if numbered then placeholderNames segment else []
  if text.isEmpty then none else some ⟨String.ofList text, names.map String.ofList⟩

/-- The statements of a text. -/
def split (numbered : Bool) (sql : String) : List Statement :=
  (segments (Lexeme.scan none sql.toList)).filterMap (ofSegment? numbered)

/-! ## Segments -/

theorem segments_ne_nil (lexemes : List Lexeme) : segments lexemes ≠ [] := by
  fun_cases segments lexemes <;> simp

/-- Segments before a separator are not affected by what follows it. -/
theorem segments_append_separator (xs ys : List Lexeme) :
    segments (xs ++ .separator :: ys) = segments xs ++ segments ys := by
  induction xs with
  | nil => rfl
  | cons lexeme rest ih =>
    cases lexeme with
    | separator => simp [segments, ih]
    | verbatim _ _ | placeholder _ _ | plain _ =>
      simp only [List.cons_append, segments, ih]
      cases h : segments rest with
      | nil => exact absurd h (segments_ne_nil rest)
      | cons first others => rfl

end Statement
end SqlSession
