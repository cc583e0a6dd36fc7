/-!
# Lexemes of SQL text

Only a few things in an SQL text can hide a semicolon or a placeholder: quoted text, comments and
dollar-quoted bodies.  A lexeme is one of these as a whole, a semicolon, a placeholder or any other
single character.

`Lexeme.text_scan` says that the lexemes of a text concatenate to it, so nothing is lost or moved.
-/

namespace SqlSession
namespace Statement

/-! ## Spans

A span is what a lexeme with an end of its own takes from the text after its opening. -/

/-- The characters up to the closing mark, which is among them, and the rest.  Without a closing
mark everything is taken. -/
structure Span where
  taken : List Char
  closed : Bool
  rest : List Char

namespace Span

def cons (c : Char) (s : Span) : Span := { s with taken := c :: s.taken }

end Span

/-- Text after an opening quote, in which a doubled quote is no end. -/
def quoted (mark : Char) : List Char → Span
  | [] => ⟨[], false, []⟩
  | [c] => ⟨[c], c == mark, []⟩
  | c :: d :: rest =>
    if c = mark then
      if d = mark then ((quoted mark rest).cons d).cons c else ⟨[c], true, d :: rest⟩
    else (quoted mark (d :: rest)).cons c

/-- A comment after its two dashes, which ends with the line. -/
def lineComment : List Char → Span
  | [] => ⟨[], false, []⟩
  | c :: rest => if c = '\n' then ⟨[c], true, rest⟩ else (lineComment rest).cons c

/-- A comment after its opening, inside `outer` other open comments.  The number has no bound, where one
of 32 bits would overflow behind `2 ^ 32` openings. -/
def blockComment (outer : Nat) : List Char → Span
  | [] => ⟨[], false, []⟩
  | '/' :: '*' :: rest => ((blockComment (outer + 1) rest).cons '*').cons '/'
  | '*' :: '/' :: rest =>
    match outer with
    | 0 => ⟨['*', '/'], true, rest⟩
    | outer + 1 => ((blockComment outer rest).cons '/').cons '*'
  | c :: rest => (blockComment outer rest).cons c

/-- A body that ends with the first occurrence of `closer`. -/
def dollarBody (closer : List Char) : List Char → Span
  | [] => ⟨[], false, []⟩
  | c :: rest =>
    if closer.isPrefixOf (c :: rest) then ⟨closer, true, (c :: rest).drop closer.length⟩
    else (dollarBody closer rest).cons c

/-! ## Names -/

def isNameStart (c : Char) : Bool := c.isAlpha || c == '_'

def isNameChar (c : Char) : Bool := c.isAlphanum || c == '_'

/-- The tag of a dollar quote, given the text after the first dollar, and the text after the second
one.  A tag does not start with a digit, because `$1` is a marker for an argument. -/
def dollarTag? (cs : List Char) : Option (List Char × List Char) :=
  if cs.head?.any Char.isDigit then none
  else match cs.dropWhile isNameChar with
    | '$' :: rest => some (cs.takeWhile isNameChar, rest)
    | _ => none

/-- Whether a sigil after this character belongs to a cast, an operator or a name. -/
def attaches (before : Option Char) : Bool :=
  before.any fun c => isNameChar c || c == ':' || c == '@'

/-- The name of a placeholder, given the character before its sigil and the text after it, and what
follows the name. -/
def placeholderName? (before : Option Char) (cs : List Char) : Option (List Char × List Char) :=
  if !attaches before && cs.head?.any isNameStart then
    some (cs.takeWhile isNameChar, cs.dropWhile isNameChar)
  else none

/-! ## Lexemes -/

inductive Lexeme
  /-- Quoted text, a comment or a dollar-quoted body with its marks.  It is not closed if the text
  ends inside it. -/
  | verbatim (text : List Char) (closed : Bool)
  | placeholder (sigil : Char) (name : List Char)
  | separator
  | plain (c : Char)
deriving DecidableEq

namespace Lexeme

def text : Lexeme → List Char
  | verbatim cs _ => cs
  | placeholder sigil name => sigil :: name
  | separator => [';']
  | plain c => [c]

/-- The lexeme that `opening` and a span after it make. -/
def ofSpan (opening : List Char) (s : Span) : Lexeme × List Char :=
  (verbatim (opening ++ s.taken) s.closed, s.rest)

/-- The lexeme that starts with the character `c`, and what follows it.  The character before it
decides whether a sigil starts a placeholder. -/
def next (before : Option Char) (c : Char) (rest : List Char) : Lexeme × List Char :=
  match c, rest with
  | '\'', rest => ofSpan ['\''] (quoted '\'' rest)
  | '"', rest => ofSpan ['"'] (quoted '"' rest)
  | '-', '-' :: rest => ofSpan ['-', '-'] (lineComment rest)
  | '/', '*' :: rest => ofSpan ['/', '*'] (blockComment 0 rest)
  | '$', rest =>
    match dollarTag? rest with
    | some (tag, body) =>
      let mark := '$' :: (tag ++ ['$'])
      ofSpan mark (dollarBody mark body)
    | none => (plain '$', rest)
  | ';', rest => (separator, rest)
  | c, rest =>
    if c = '@' ∨ c = ':' then
      match placeholderName? before rest with
      | some (name, rest) => (placeholder c name, rest)
      | none => (plain c, rest)
    else (plain c, rest)

end Lexeme

/-! ## Nothing is lost -/

theorem quoted_taken (mark : Char) (cs : List Char) :
    (quoted mark cs).taken ++ (quoted mark cs).rest = cs := by
  fun_induction quoted mark cs <;> simp_all [Span.cons]

theorem lineComment_taken (cs : List Char) :
    (lineComment cs).taken ++ (lineComment cs).rest = cs := by
  fun_induction lineComment cs <;> simp_all [Span.cons]

theorem blockComment_taken (outer : Nat) (cs : List Char) :
    (blockComment outer cs).taken ++ (blockComment outer cs).rest = cs := by
  fun_induction blockComment outer cs <;> simp_all [Span.cons]

theorem dollarBody_taken (closer cs : List Char) :
    (dollarBody closer cs).taken ++ (dollarBody closer cs).rest = cs := by
  fun_induction dollarBody closer cs with
  | case1 => rfl
  | case2 c rest h =>
    obtain ⟨tail, htail⟩ := List.isPrefixOf_iff_prefix.mp h
    simp [← htail]
  | case3 c rest _ ih => simp_all [Span.cons]

theorem dollarTag?_eq_some {cs tag rest : List Char} (h : dollarTag? cs = some (tag, rest)) :
    tag ++ '$' :: rest = cs := by
  unfold dollarTag? at h
  split at h
  · cases h
  · split at h
    · next hdrop =>
      cases h
      rw [← hdrop, List.takeWhile_append_dropWhile]
    · cases h

theorem placeholderName?_eq_some {before : Option Char} {cs name rest : List Char}
    (h : placeholderName? before cs = some (name, rest)) : name ++ rest = cs := by
  unfold placeholderName? at h
  split at h
  · cases h
    exact List.takeWhile_append_dropWhile
  · cases h

namespace Lexeme

theorem text_ofSpan (opening : List Char) (s : Span) :
    (ofSpan opening s).1.text ++ (ofSpan opening s).2 = opening ++ (s.taken ++ s.rest) := by
  simp [ofSpan, text]

/-- A lexeme and what follows it are the text that was there. -/
theorem text_next (before : Option Char) (c : Char) (rest : List Char) :
    (next before c rest).1.text ++ (next before c rest).2 = c :: rest := by
  unfold next
  split
  · rw [text_ofSpan, quoted_taken]; rfl
  · rw [text_ofSpan, quoted_taken]; rfl
  · rw [text_ofSpan, lineComment_taken]; rfl
  · rw [text_ofSpan, blockComment_taken]; rfl
  · split
    · next h =>
      rw [text_ofSpan, dollarBody_taken, ← dollarTag?_eq_some h]
      simp
    · rfl
  · rfl
  · split
    · split
      · next h => simp [text, placeholderName?_eq_some h]
      · rfl
    · rfl

theorem text_next_ne_nil (before : Option Char) (c : Char) (rest : List Char) :
    (next before c rest).1.text ≠ [] := by
  unfold next
  split
  case h_5 => split <;> simp [ofSpan, text]
  case h_7 => (split; split) <;> simp [text]
  all_goals simp [ofSpan, text]

theorem length_next_lt (before : Option Char) (c : Char) (rest : List Char) :
    (next before c rest).2.length < (c :: rest).length := by
  have htext := congrArg List.length (text_next before c rest)
  have hpos := List.length_pos_iff.mpr (text_next_ne_nil before c rest)
  rw [List.length_append] at htext
  omega

/-! ## Scanning a text -/

/-- The lexemes of a text that stands after the character `before`. -/
def scan (before : Option Char) : List Char → List Lexeme
  | [] => []
  | c :: rest =>
    let step := next before c rest
    step.1 :: scan step.1.text.getLast? step.2
termination_by cs => cs.length
decreasing_by exact length_next_lt before c rest

theorem scan_nil (before : Option Char) : scan before [] = [] := by
  rw [scan]

theorem scan_cons (before : Option Char) (c : Char) (rest : List Char) :
    scan before (c :: rest) =
      (next before c rest).1 ::
        scan (next before c rest).1.text.getLast? (next before c rest).2 := by
  rw [scan]

/-- The lexemes of a text concatenate to it. -/
theorem text_scan (before : Option Char) (cs : List Char) :
    (scan before cs).flatMap text = cs := by
  fun_induction scan before cs with
  | case1 => rfl
  | case2 before c rest step ih =>
    rw [List.flatMap_cons, ih]
    exact text_next before c rest

end Lexeme
end Statement
end SqlSession
