import SqlSession.Proofs.Text.Utf8
import SqlSession.Statement.Split

/-!
# A scanner over bytes

The lexer takes a lexeme as a whole.  The scanner here goes over the bytes of a text and remembers
only a mode, which is how splitting is described where memory and time matter: it knows the byte
before and at most two bytes ahead, except for the names of tags and placeholders.

A scanner has passed some bytes and has the rest before it.  `step?` is one round of its loop, `Run`
says which scanners are visited on the way from one to another, and `parse` gives the statements.
-/

namespace SqlSession
namespace Statement

/-! ## Bytes of names -/

def isNameStartByte (b : UInt8) : Bool := isNameStart (Char.ofUInt8 b)

def isNameByte (b : UInt8) : Bool := isNameChar (Char.ofUInt8 b)

def isDigitByte (b : UInt8) : Bool := (Char.ofUInt8 b).isDigit

/-- The tag of a dollar quote, given the bytes after the first dollar, and those after the second
one. -/
def tag? (rest : List UInt8) : Option (List UInt8 × List UInt8) :=
  if rest.head?.any isDigitByte then none
  else match rest.dropWhile isNameByte with
    | [] => none
    | b :: body => if b = '$'.toUInt8 then some (rest.takeWhile isNameByte, body) else none

/-- A dollar quote with this tag. -/
def dollarMark (tag : List UInt8) : List UInt8 := '$'.toUInt8 :: (tag ++ ['$'.toUInt8])

/-! ## Scanners -/

/-- What the scanner is inside of. -/
inductive Mode
  | normal
  | quoted (mark : UInt8)
  | lineComment
  /-- Inside so many open comments.  The number has no bound, where one of 32 bits would overflow behind
  `2 ^ 32` openings. -/
  | blockComment (depth : Nat)
  | dollarQuoted (tag : List UInt8)
deriving DecidableEq

/-- The bytes of a segment and the names of its numbered placeholders. -/
structure Chunk where
  text : List UInt8
  names : List (List UInt8)
deriving DecidableEq

/-- The statement of a chunk, unless the chunk is blank. -/
def Chunk.statement? (chunk : Chunk) : Option Statement := do
  let text ← Text.decode? chunk.text
  let names ← chunk.names.mapM Text.decode?
  if (Text.trim text).isEmpty then none else some ⟨Text.trim text, names⟩

structure Scanner where
  passed : List UInt8
  rest : List UInt8
  mode : Mode
  /-- What has been cut off at semicolons. -/
  chunks : List Chunk
  /-- The bytes of the current segment. -/
  current : List UInt8
  /-- The names of the current segment. -/
  names : List (List UInt8)
deriving DecidableEq

namespace Scanner

def start (bytes : List UInt8) : Scanner := ⟨[], bytes, .normal, [], [], []⟩

/-- Passes some bytes, which become part of the current segment as they are. -/
def keep (s : Scanner) (text rest : List UInt8) (mode : Mode) : Scanner :=
  ⟨s.passed ++ text, rest, mode, s.chunks, s.current ++ text, s.names⟩

def cut (s : Scanner) (rest : List UInt8) : Scanner :=
  ⟨s.passed ++ [';'.toUInt8], rest, .normal, s.chunks ++ [⟨s.current, s.names⟩], [], []⟩

def named (s : Scanner) (name : List UInt8) : List (List UInt8) :=
  if name ∈ s.names then s.names else s.names ++ [name]

/-- Passes a placeholder, for which the marker of its argument is put into the current segment. -/
def number (s : Scanner) (sigil : UInt8) (name rest : List UInt8) : Scanner :=
  ⟨s.passed ++ sigil :: name, rest, .normal, s.chunks,
    s.current ++ Text.utf8 (argument ((s.named name).idxOf name + 1)), s.named name⟩

/-- Whether a byte after these ones starts a name that is a placeholder. -/
def opensPlaceholder (passed : List UInt8) (b : UInt8) (rest : List UInt8) : Bool :=
  (b = '@'.toUInt8 || b = ':'.toUInt8) &&
    !(passed.getLast?.any fun p => isNameByte p || p = '@'.toUInt8 || p = ':'.toUInt8) &&
    rest.head?.any isNameStartByte

def stepNormal (numbered : Bool) (s : Scanner) (b : UInt8) (rest : List UInt8) : Scanner :=
  if b = '\''.toUInt8 ∨ b = '"'.toUInt8 then s.keep [b] rest (.quoted b)
  else if b = '-'.toUInt8 ∧ rest.head? = some '-'.toUInt8 then s.keep [b] rest .lineComment
  else if b = '/'.toUInt8 ∧ rest.head? = some '*'.toUInt8 then
    s.keep [b, '*'.toUInt8] rest.tail (.blockComment 1)
  else if b = '$'.toUInt8 then
    match tag? rest with
    | some (tag, body) => s.keep (dollarMark tag) body (.dollarQuoted tag)
    | none => s.keep [b] rest .normal
  else if b = ';'.toUInt8 then s.cut rest
  else if numbered && opensPlaceholder s.passed b rest then
    s.number b (rest.takeWhile isNameByte) (rest.dropWhile isNameByte)
  else s.keep [b] rest .normal

def stepQuoted (s : Scanner) (mark b : UInt8) (rest : List UInt8) : Scanner :=
  if b = mark then
    if rest.head? = some mark then s.keep [b, mark] rest.tail (.quoted mark)
    else s.keep [b] rest .normal
  else s.keep [b] rest (.quoted mark)

def stepLineComment (s : Scanner) (b : UInt8) (rest : List UInt8) : Scanner :=
  s.keep [b] rest (if b = '\n'.toUInt8 then .normal else .lineComment)

def stepBlockComment (s : Scanner) (depth : Nat) (b : UInt8) (rest : List UInt8) : Scanner :=
  if b = '/'.toUInt8 ∧ rest.head? = some '*'.toUInt8 then
    s.keep [b, '*'.toUInt8] rest.tail (.blockComment (depth + 1))
  else if b = '*'.toUInt8 ∧ rest.head? = some '/'.toUInt8 then
    s.keep [b, '/'.toUInt8] rest.tail (if depth = 1 then .normal else .blockComment (depth - 1))
  else s.keep [b] rest (.blockComment depth)

def stepDollarQuoted (s : Scanner) (tag : List UInt8) (b : UInt8) (rest : List UInt8) : Scanner :=
  if (dollarMark tag).isPrefixOf (b :: rest) then
    s.keep (dollarMark tag) ((b :: rest).drop (dollarMark tag).length) .normal
  else s.keep [b] rest (.dollarQuoted tag)

/-- One round of the loop, unless nothing is left. -/
def step? (numbered : Bool) (s : Scanner) : Option Scanner :=
  match s.rest with
  | [] => none
  | b :: rest =>
    match s.mode with
    | .normal => some (s.stepNormal numbered b rest)
    | .quoted mark => some (s.stepQuoted mark b rest)
    | .lineComment => some (s.stepLineComment b rest)
    | .blockComment depth => some (s.stepBlockComment depth b rest)
    | .dollarQuoted tag => some (s.stepDollarQuoted tag b rest)

/-! ## What a step can do -/

theorem tag?_eq_some {rest tag body : List UInt8} (h : tag? rest = some (tag, body)) :
    rest = tag ++ '$'.toUInt8 :: body := by
  unfold tag? at h
  split at h
  · cases h
  · split at h
    · cases h
    · next b rest' hdrop =>
      split at h
      · next hb =>
        cases h
        rw [← hb, ← hdrop, List.takeWhile_append_dropWhile]
      · cases h

/-- A step keeps some bytes, or cuts at a semicolon, or numbers a placeholder. -/
inductive Moved (numbered : Bool) (s : Scanner) : Scanner → Prop
  | kept {text rest : List UInt8} (mode : Mode) (ne_nil : text ≠ []) (rest_eq : s.rest = text ++ rest) :
      Moved numbered s (s.keep text rest mode)
  | cut {rest : List UInt8} (normal : s.mode = .normal) (rest_eq : s.rest = ';'.toUInt8 :: rest) :
      Moved numbered s (s.cut rest)
  | numbered {sigil : UInt8} {name rest : List UInt8} (flag : numbered = true)
      (normal : s.mode = .normal) (rest_eq : s.rest = sigil :: (name ++ rest))
      (opens : opensPlaceholder s.passed sigil (name ++ rest) = true)
      (name_eq : name = (name ++ rest).takeWhile isNameByte) :
      Moved numbered s (s.number sigil name rest)

variable {numbered : Bool} {s t u : Scanner}

theorem moved_one {b : UInt8} {rest : List UInt8} (hrest : s.rest = b :: rest) (mode : Mode) :
    Moved numbered s (s.keep [b] rest mode) :=
  .kept mode (List.cons_ne_nil _ _) hrest

theorem moved_pair {b c : UInt8} {rest : List UInt8} (hrest : s.rest = b :: rest)
    (hnext : rest.head? = some c) (mode : Mode) :
    Moved numbered s (s.keep [b, c] rest.tail mode) := by
  refine .kept mode (List.cons_ne_nil _ _) ?_
  cases rest with
  | nil => cases hnext
  | cons d rest =>
    obtain rfl : d = c := Option.some.inj hnext
    exact hrest

theorem moved_of_step? (h : s.step? numbered = some t) : Moved numbered s t := by
  unfold step? at h
  split at h
  · cases h
  · next b rest hrest =>
    split at h
    · next hmode =>
      cases h
      unfold stepNormal
      split
      · exact moved_one hrest _
      · split
        · exact moved_one hrest _
        · split
          · next hpair => exact moved_pair hrest hpair.2 _
          · split
            · next hb =>
              split
              · next tag body htag =>
                refine .kept _ (List.cons_ne_nil _ _) ?_
                rw [hrest, tag?_eq_some htag, hb, dollarMark]
                simp
              · exact moved_one hrest _
            · split
              · next hb => exact .cut hmode (hb ▸ hrest)
              · split
                · next hopens =>
                  obtain ⟨hflag, hopens⟩ := Bool.and_eq_true_iff.mp hopens
                  have hname : rest.takeWhile isNameByte ++ rest.dropWhile isNameByte = rest :=
                    List.takeWhile_append_dropWhile
                  refine .numbered hflag hmode ?_ ?_ ?_
                  · rw [hname, hrest]
                  · rw [hname]
                    exact hopens
                  · rw [hname]
                · exact moved_one hrest _
    · cases h
      unfold stepQuoted
      split
      · next hb =>
        split
        · next hnext => exact moved_pair hrest hnext _
        · exact moved_one hrest _
      · exact moved_one hrest _
    · cases h
      exact moved_one hrest _
    · cases h
      unfold stepBlockComment
      split
      · next hpair => exact moved_pair hrest hpair.2 _
      · split
        · next hpair => exact moved_pair hrest hpair.2 _
        · exact moved_one hrest _
    · cases h
      unfold stepDollarQuoted
      split
      · next hprefix =>
        obtain ⟨body, hbody⟩ := List.isPrefixOf_iff_prefix.mp hprefix
        refine .kept _ (List.cons_ne_nil _ _) ?_
        rw [hrest, ← hbody, List.drop_left]
      · exact moved_one hrest _

theorem Moved.bytes (h : Moved numbered s t) : t.passed ++ t.rest = s.passed ++ s.rest := by
  cases h with
  | kept mode hne hrest =>
    rw [hrest]
    exact List.append_assoc _ _ _
  | cut hmode hrest =>
    rw [hrest]
    exact List.append_assoc _ _ _
  | numbered hflag hmode hrest hopens hname =>
    rw [hrest]
    exact List.append_assoc _ _ _

theorem Moved.length_lt (h : Moved numbered s t) : t.rest.length < s.rest.length := by
  cases h with
  | @kept text rest mode hne hrest =>
    have hpos := List.length_pos_iff.mpr hne
    rw [hrest, List.length_append]
    show rest.length < _
    omega
  | cut hmode hrest =>
    rw [hrest]
    exact Nat.lt_succ_self _
  | @numbered sigil name rest hflag hmode hrest hopens hname =>
    rw [hrest, List.length_cons, List.length_append]
    show rest.length < _
    omega

theorem step?_eq_none : s.step? numbered = none ↔ s.rest = [] := by
  unfold step?
  cases s.rest with
  | nil => simp
  | cons b rest => cases s.mode <;> simp

/-! ## The loop -/

def run (numbered : Bool) (s : Scanner) : Scanner :=
  match _h : s.step? numbered with
  | none => s
  | some t => run numbered t
termination_by s.rest.length
decreasing_by exact (moved_of_step? _h).length_lt

/-- All chunks, also the last one, behind which there is no semicolon. -/
def finish (s : Scanner) : List Chunk := s.chunks ++ [⟨s.current, s.names⟩]

def parse (numbered : Bool) (sql : String) : List Statement :=
  ((start sql.toUTF8.data.toList).run numbered).finish.filterMap Chunk.statement?

/-! ## Runs -/

/-- The scanners that are visited on the way from `s` to another one, `s` being the first of them. -/
inductive Run (numbered : Bool) : Scanner → List Scanner → Scanner → Prop
  | refl (s : Scanner) : Run numbered s [] s
  | step {s t u : Scanner} {visited : List Scanner} (first : s.step? numbered = some t)
      (others : Run numbered t visited u) : Run numbered s (s :: visited) u

/-- The loop comes from `s` to `t`. -/
def Reaches (numbered : Bool) (s t : Scanner) : Prop := ∃ visited, Run numbered s visited t

theorem Run.trans {xs ys : List Scanner} (h : Run numbered s xs t) (h' : Run numbered t ys u) :
    Run numbered s (xs ++ ys) u := by
  induction h with
  | refl s => exact h'
  | step hfirst _ ih => exact .step hfirst (ih h')

theorem Run.single (h : s.step? numbered = some t) : Run numbered s [s] t := .step h (.refl t)

theorem Run.bytes {xs : List Scanner} (h : Run numbered s xs t) :
    t.passed ++ t.rest = s.passed ++ s.rest := by
  induction h with
  | refl s => rfl
  | step hfirst _ ih => rw [ih, (moved_of_step? hfirst).bytes]

theorem Run.run_eq {xs : List Scanner} (h : Run numbered s xs t) :
    s.run numbered = t.run numbered := by
  induction h with
  | refl s => rfl
  | step hfirst _ ih =>
    rw [← ih]
    conv => lhs; rw [run]
    split
    · next hnone =>
      rw [hnone] at hfirst
      cases hfirst
    · next hsome =>
      rw [hsome] at hfirst
      cases hfirst
      rfl

theorem run_of_end (h : s.rest = []) : s.run numbered = s := by
  rw [run]
  split
  · rfl
  · next hsome =>
    rw [step?_eq_none.mpr h] at hsome
    cases hsome

/-- Whatever is reached before the end of a text has been visited on the way there. -/
theorem Run.mem_of_reaches {xs : List Scanner} (h : Run numbered s xs t) (hend : t.rest = [])
    (hu : Reaches numbered s u) (hrest : u.rest ≠ []) : u ∈ xs := by
  obtain ⟨ys, hu⟩ := hu
  induction hu generalizing xs with
  | refl s =>
    cases h with
    | refl => exact absurd hend hrest
    | step hfirst hothers => exact List.mem_cons_self
  | step hfirst _ ih =>
    cases h with
    | refl =>
      rw [step?_eq_none.mpr hend] at hfirst
      cases hfirst
    | step hfirst' hothers =>
      rw [hfirst'] at hfirst
      cases hfirst
      exact List.mem_cons_of_mem _ (ih hothers hrest)

theorem Run.reaches_of_mem {xs : List Scanner} (h : Run numbered s xs t) (hu : u ∈ xs) :
    Reaches numbered s u := by
  induction h with
  | refl s => cases hu
  | step hfirst _ ih =>
    rcases List.mem_cons.mp hu with rfl | hu
    · exact ⟨[], .refl _⟩
    · obtain ⟨ys, hys⟩ := ih hu
      exact ⟨_, .step hfirst hys⟩

end Scanner

/-! ## Lexemes in chunks -/

open Text in
/-- The chunk with a lexeme behind it, which has the number of its name if placeholders are numbered. -/
def Chunk.write (numbered : Bool) (chunk : Chunk) (l : Lexeme) : Chunk :=
  match l with
  | .placeholder sigil name =>
    if numbered then
      let names :=
        if utf8 name ∈ chunk.names then chunk.names else chunk.names ++ [utf8 name]
      ⟨chunk.text ++ utf8 (argument (names.idxOf (utf8 name) + 1)), names⟩
    else ⟨chunk.text ++ utf8 (sigil :: name), chunk.names⟩
  | l => ⟨chunk.text ++ utf8 l.text, chunk.names⟩

end Statement
end SqlSession
