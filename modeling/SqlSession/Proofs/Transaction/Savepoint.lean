import SqlSession.Proofs.Text.Trim
import SqlSession.Proofs.Transaction.Calls

/-!
# Names of savepoints as they are read

A savepoint has the name that an identifier in a statement stands for.  A word stands for itself in
lower case, quoted text for what is between its quotes, in which a doubled quote is a quote.
`Savepoint.read?_quote` says that a quoted name stands for the name, with anything after it that cannot
belong to an identifier.
-/

namespace SqlSession

open Effect Engine

namespace Identifier

/-- Whether a character can start a word.  To an identifier everything beyond ASCII is a letter. -/
def isWordStart (c : Char) : Bool := c.isAlpha || c == '_' || decide (0x80 ≤ c.toNat)

def isWordChar (c : Char) : Bool := isWordStart c || c.isDigit || c == '$'

/-- The name that quoted text after its opening quote stands for, and what follows its closing one. -/
def quoted? : List Char → Option (List Char × List Char)
  | [] => none
  | '"' :: '"' :: rest => (quoted? rest).map fun (name, rest) => ('"' :: name, rest)
  | '"' :: rest => some ([], rest)
  | c :: rest => (quoted? rest).map fun (name, rest) => (c :: name, rest)

/-- The name that the identifier at the start of a text stands for, and what follows it. -/
def read? : List Char → Option (List Char × List Char)
  | [] => none
  | '"' :: rest => quoted? rest
  | c :: rest =>
    if isWordStart c then
      some (((c :: rest).takeWhile isWordChar).map Char.toLower, (c :: rest).dropWhile isWordChar)
    else none

/-- Whether text after an identifier cannot belong to it. -/
def Apart (rest : List Char) : Prop :=
  rest.head?.any (fun c => isWordChar c || c == '"') = false

/-- Every quote in the text is one of a pair. -/
inductive Doubled : List Char → Prop
  | nil : Doubled []
  | other {c : Char} {rest : List Char} (noQuote : c ≠ '"') (doubled : Doubled rest) :
      Doubled (c :: rest)
  | pair {rest : List Char} (doubled : Doubled rest) : Doubled ('"' :: '"' :: rest)

/-- The two forms of an identifier.  The quotes around quoted text are the only ones that can end it. -/
inductive Written : List Char → Prop
  | word {c : Char} {rest : List Char} (start : isWordStart c = true)
      (all : ∀ d ∈ rest, isWordChar d = true) : Written (c :: rest)
  | enclosed {body : List Char} (doubled : Doubled body) : Written ('"' :: (body ++ ['"']))

theorem Apart.head?_ne {rest : List Char} (h : Apart rest) : rest.head? ≠ some '"' := by
  intro hhead
  rw [Apart, hhead] at h
  cases h

theorem Apart.head?_any {rest : List Char} (h : Apart rest) : rest.head?.any isWordChar = false := by
  unfold Apart at h
  cases hhead : rest.head? with
  | none => rfl
  | some c =>
    rw [hhead, Option.any_some, Bool.or_eq_false_iff] at h
    exact h.1

theorem quoted?_end {rest : List Char} (h : rest.head? ≠ some '"') :
    quoted? ('"' :: rest) = some ([], rest) := by
  cases rest with
  | nil => rfl
  | cons d rest =>
    have hd : d ≠ '"' := fun heq => h (congrArg some heq)
    rw [quoted?]
    intro _ heq
    exact hd (List.cons.inj heq).1

theorem quoted?_cons {c : Char} (hc : c ≠ '"') (rest : List Char) :
    quoted? (c :: rest) = (quoted? rest).map fun (name, rest) => (c :: name, rest) := by
  rw [quoted?]
  · exact fun _ heq _ => hc heq
  · exact hc

theorem read?_word {c : Char} (hc : isWordStart c = true) (rest : List Char) :
    read? (c :: rest) =
      some (((c :: rest).takeWhile isWordChar).map Char.toLower, (c :: rest).dropWhile isWordChar) := by
  rw [read?, if_pos hc]
  rintro rfl
  cases hc

end Identifier

namespace Savepoint

open Identifier

/-! ## Plain names -/

theorem toLower_of_isPlainChar {c : Char} (h : isPlainChar c = true) : c.toLower = c := by
  have hnotUpper : ¬ (c.val ≥ 'A'.val ∧ c.val ≤ 'Z'.val) := by
    unfold isPlainChar isPlainStart Char.isLower Char.isDigit at h
    simp only [Bool.or_eq_true, Bool.and_eq_true, decide_eq_true_eq, beq_iff_eq,
      UInt32.le_iff_toNat_le, ge_iff_le] at h ⊢
    have hA : 'A'.val.toNat = 65 := rfl
    have hZ : 'Z'.val.toNat = 90 := rfl
    have ha : 'a'.val.toNat = 97 := rfl
    have h9 : '9'.val.toNat = 57 := rfl
    rcases h with ((hlower | rfl) | hdigit) | rfl
    · omega
    · decide
    · omega
    · decide
  exact dif_neg hnotUpper

theorem isWordStart_of_isPlainStart {c : Char} (h : isPlainStart c = true) : isWordStart c = true := by
  unfold isPlainStart at h
  unfold isWordStart Char.isAlpha
  rcases Bool.or_eq_true _ _ ▸ h with hlower | hunder
  · rw [hlower, Bool.or_true]
    rfl
  · rw [hunder, Bool.or_true]
    rfl

theorem isWordChar_of_isPlainChar {c : Char} (h : isPlainChar c = true) : isWordChar c = true := by
  simp only [isPlainChar, isWordChar, Bool.or_eq_true] at h ⊢
  exact h.imp_left (Or.imp_left isWordStart_of_isPlainStart)

theorem isPlain_eq_true {name : List Char} (h : isPlain name = true) :
    ∃ c rest, name = c :: rest ∧ isPlainStart c = true ∧ ∀ d ∈ name, isPlainChar d = true := by
  cases name with
  | nil => cases h
  | cons c rest =>
    obtain ⟨hstart, hrest⟩ := Bool.and_eq_true_iff.mp h
    refine ⟨c, rest, rfl, hstart, ?_⟩
    intro d hd
    obtain rfl | hd := List.mem_cons.mp hd
    · rw [isPlainChar, hstart]
      rfl
    · exact List.all_eq_true.mp hrest d hd

theorem read?_of_isPlain {name rest : List Char} (h : isPlain name = true) (hrest : Apart rest) :
    read? (name ++ rest) = some (name, rest) := by
  obtain ⟨c, tail, rfl, hstart, hall⟩ := isPlain_eq_true h
  have hdrop : ((c :: tail) ++ rest).dropWhile isWordChar = rest :=
    Text.dropWhile_append (fun d hd => isWordChar_of_isPlainChar (hall d hd)) hrest.head?_any
  have htake : ((c :: tail) ++ rest).takeWhile isWordChar = c :: tail := by
    have hwhole := @List.takeWhile_append_dropWhile _ isWordChar ((c :: tail) ++ rest)
    rw [hdrop] at hwhole
    exact List.append_cancel_right hwhole
  have hfold : (c :: tail).map Char.toLower = c :: tail :=
    (List.map_congr_left fun d hd => toLower_of_isPlainChar (hall d hd)).trans (List.map_id _)
  rw [List.cons_append, read?_word (isWordStart_of_isPlainStart hstart), ← List.cons_append, htake,
    hdrop, hfold]

/-! ## Quoted names -/

theorem doubleQuotes_cons (c : Char) (name : List Char) :
    doubleQuotes (c :: name) = (if c = '"' then ['"', '"'] else [c]) ++ doubleQuotes name := rfl

theorem doubled_doubleQuotes (name : List Char) : Doubled (doubleQuotes name) := by
  induction name with
  | nil => exact .nil
  | cons c name ih =>
    rw [doubleQuotes_cons]
    split
    · exact .pair ih
    · next hc => exact .other hc ih

theorem quoted?_doubleQuotes (name : List Char) {rest : List Char} (hrest : rest.head? ≠ some '"') :
    quoted? (doubleQuotes name ++ '"' :: rest) = some (name, rest) := by
  induction name with
  | nil => exact quoted?_end hrest
  | cons c name ih =>
    rw [doubleQuotes_cons]
    split
    · next hc =>
      subst hc
      show quoted? ('"' :: '"' :: (doubleQuotes name ++ '"' :: rest)) = _
      rw [quoted?, ih]
      rfl
    · next hc =>
      show quoted? (c :: (doubleQuotes name ++ '"' :: rest)) = _
      rw [quoted?_cons hc, ih]
      rfl

/-! ## Names as they are written -/

theorem quote_eq_error {name : String} {err : Error} :
    quote name = .error err ↔ Text.allBlank name = true ∧ err = .argument .blankSavepoint := by
  unfold quote
  split
  · next hblank =>
    rw [Except.error.injEq]
    exact ⟨fun h => ⟨hblank, h.symm⟩, fun h => h.2.symm⟩
  · next hblank => split <;> exact ⟨nofun, fun h => absurd h.1 hblank⟩

/-- A name is written as it is if it is plain, and between quotes otherwise. -/
theorem quote_eq_ok {name q : String} (h : quote name = .ok q) :
    (isPlain name.toList = true ∧ q = name) ∨
      (isPlain name.toList = false ∧ q.toList = '"' :: (doubleQuotes name.toList ++ ['"'])) := by
  unfold quote at h
  split at h
  · cases h
  · split at h
    · next hplain =>
      cases h
      exact .inl ⟨hplain, rfl⟩
    · next hplain =>
      cases h
      exact .inr ⟨Bool.eq_false_iff.mpr hplain, String.toList_ofList⟩

/-- What is written is read as the name, whatever comes after it that cannot belong to it. -/
theorem read?_quote {name q : String} (h : quote name = .ok q) {rest : List Char} (hrest : Apart rest) :
    read? (q.toList ++ rest) = some (name.toList, rest) := by
  obtain ⟨hplain, rfl⟩ | ⟨-, hq⟩ := quote_eq_ok h
  · exact read?_of_isPlain hplain hrest
  · rw [hq]
    show quoted? (doubleQuotes name.toList ++ ['"'] ++ rest) = _
    rw [List.append_assoc]
    exact quoted?_doubleQuotes name.toList hrest.head?_ne

example : (quote "a\"B").toOption = some "\"a\"\"B\"" ∧
    read? "\"a\"\"B\";".toList = some ("a\"B".toList, [';']) := by
  decide

theorem written_quote {name q : String} (h : quote name = .ok q) : Written q.toList := by
  obtain ⟨hplain, rfl⟩ | ⟨-, hq⟩ := quote_eq_ok h
  · obtain ⟨c, rest, hname, hstart, hall⟩ := isPlain_eq_true hplain
    rw [hname] at hall ⊢
    exact .word (isWordStart_of_isPlainStart hstart)
      fun d hd => isWordChar_of_isPlainChar (hall d (List.mem_cons_of_mem c hd))
  · rw [hq]
    exact .enclosed (doubled_doubleQuotes _)

/-! ## Statements about savepoints -/

/-- The words that a statement about a savepoint can start with. -/
def openings : List String := ["SAVEPOINT ", "RELEASE SAVEPOINT ", "ROLLBACK TO SAVEPOINT "]

/-- The name of the savepoint in a statement that starts with these words. -/
def namedAfter? (words sql : String) : Option String :=
  match (words.toList.isPrefixOf? sql.toList).bind read? with
  | some (name, []) => some (String.ofList name)
  | _ => none

/-- The name of the savepoint that a statement is about. -/
def named? (sql : String) : Option String :=
  openings.findSome? fun words => namedAfter? words sql

theorem namedAfter?_quote {name q : String} (h : quote name = .ok q) (words : String) :
    namedAfter? words (words ++ q) = some name := by
  have hrest : words.toList.isPrefixOf? (words ++ q).toList = some q.toList :=
    List.isPrefixOf?_eq_some_iff_append_eq.mpr String.toList_append.symm
  have hread := @read?_quote name q h [] rfl
  rw [List.append_nil] at hread
  rw [namedAfter?, hrest, Option.bind_some, hread]
  exact congrArg some String.ofList_toList

theorem namedAfter?_of_other {words other : String}
    (h : ∀ cs, words.toList.isPrefixOf? (other.toList ++ cs) = none) (q : String) :
    namedAfter? words (other ++ q) = none := by
  rw [namedAfter?, String.toList_append, h]
  rfl

theorem named?_quote {name q words : String} (h : quote name = .ok q) (hwords : words ∈ openings) :
    named? (words ++ q) = some name := by
  have hname := namedAfter?_quote h
  simp only [openings, List.mem_cons, List.not_mem_nil, or_false] at hwords
  -- No opening is the start of another one, so those before it in the list are passed over.
  rcases hwords with rfl | rfl | rfl
  · rw [named?, openings, List.findSome?_cons, hname]
  · have hsave := @namedAfter?_of_other "SAVEPOINT " "RELEASE SAVEPOINT " (fun _ => rfl) q
    rw [named?, openings, List.findSome?_cons, hsave, List.findSome?_cons, hname]
  · have hsave := @namedAfter?_of_other "SAVEPOINT " "ROLLBACK TO SAVEPOINT " (fun _ => rfl) q
    have hrelease :=
      @namedAfter?_of_other "RELEASE SAVEPOINT " "ROLLBACK TO SAVEPOINT " (fun _ => rfl) q
    rw [named?, openings, List.findSome?_cons, hsave, List.findSome?_cons, hrelease,
      List.findSome?_cons, hname]

end Savepoint

namespace Transaction

/-- The ways to work with a savepoint of a transaction. -/
def savepointWork : List (String → ConnectionM Unit) := [save, release, rollbackTo]

/-- The work sends this statement and nothing else. -/
def Sends (work : ConnectionM Unit) (sql : String) : Prop :=
  ∀ c, Logs c.engine (final (work c)).engine [.execute sql false]

theorem Sends.unique {work : ConnectionM Unit} {sql sql' : String} (h : Sends work sql)
    (h' : Sends work sql') : sql = sql' := by
  have hsame := (h { engine := .initial }).symm.trans (h' { engine := .initial })
  cases List.append_cancel_left hsame
  rfl

theorem savepointWork_eq {work : String → ConnectionM Unit} (h : work ∈ savepointWork) :
    ∃ words ∈ Savepoint.openings, work = onSavepoint words := by
  simp only [savepointWork, List.mem_cons, List.not_mem_nil, or_false] at h
  rcases h with rfl | rfl | rfl
  · exact ⟨_, .head _, rfl⟩
  · exact ⟨_, .tail _ (.head _), rfl⟩
  · exact ⟨_, .tail _ (.tail _ (.head _)), rfl⟩

theorem onSavepoint_refused {name : String} {err : Error} (h : Savepoint.quote name = .error err)
    (words : String) (c : Connection) : onSavepoint words name c = .error err c := by
  unfold onSavepoint
  rw [h]
  rfl

theorem onSavepoint_sends {name q : String} (h : Savepoint.quote name = .ok q) (words : String) :
    Sends (onSavepoint words name) (words ++ q) := by
  intro c
  have hlogs := onSavepoint_logs words name c
  rw [savepointCalls, h] at hlogs
  exact hlogs

/-- Work with a savepoint whose name is accepted sends one statement, and that is about the savepoint
with this name. -/
theorem savepointWork_sends {name q : String} (h : Savepoint.quote name = .ok q)
    {work : String → ConnectionM Unit} (hwork : work ∈ savepointWork) :
    ∃ sql, Sends (work name) sql ∧ Savepoint.named? sql = some name := by
  obtain ⟨words, hwords, rfl⟩ := savepointWork_eq hwork
  exact ⟨words ++ q, onSavepoint_sends h words, Savepoint.named?_quote h hwords⟩

/-- A name is refused, and no work is done with it, exactly if there is nothing in it but blanks.  Every
other name is written as an identifier that stands for it and cannot end early, and two pieces of work
are about the same savepoint only if they were given the same name. -/
theorem savepoint_names_kept (name : String) :
    ((∃ err, Savepoint.quote name = .error err) ↔ ∀ c ∈ name.toList, Text.isBlank c = true) ∧
      (∀ err, Savepoint.quote name = .error err → err = .argument .blankSavepoint ∧
        ∀ work ∈ savepointWork, ∀ c, work name c = .error err c) ∧
      ∀ q, Savepoint.quote name = .ok q →
        Identifier.Written q.toList ∧
        (∀ rest, Identifier.Apart rest →
          Identifier.read? (q.toList ++ rest) = some (name.toList, rest)) ∧
        ∀ work ∈ savepointWork, ∃ sql, Sends (work name) sql ∧ Savepoint.named? sql = some name ∧
          ∀ other q', Savepoint.quote other = .ok q' → ∀ work' ∈ savepointWork, ∀ sql',
            Sends (work' other) sql' →
              (Savepoint.named? sql = Savepoint.named? sql' ↔ name = other) := by
  refine ⟨?_, ?_, ?_⟩
  · rw [← List.all_eq_true]
    constructor
    · rintro ⟨err, herr⟩
      exact (Savepoint.quote_eq_error.mp herr).1
    · intro hblank
      exact ⟨_, Savepoint.quote_eq_error.mpr ⟨hblank, rfl⟩⟩
  · intro err herr
    refine ⟨(Savepoint.quote_eq_error.mp herr).2, ?_⟩
    intro work hwork c
    obtain ⟨words, -, rfl⟩ := savepointWork_eq hwork
    exact onSavepoint_refused herr words c
  · intro q hq
    refine ⟨Savepoint.written_quote hq, fun rest => Savepoint.read?_quote hq, ?_⟩
    intro work hwork
    obtain ⟨sql, hsends, hnamed⟩ := savepointWork_sends hq hwork
    refine ⟨sql, hsends, hnamed, ?_⟩
    intro other q' hq' work' hwork' sql' hsends'
    obtain ⟨sql₁, hsends₁, hnamed'⟩ := savepointWork_sends hq' hwork'
    cases hsends'.unique hsends₁
    rw [hnamed, hnamed', Option.some.injEq]

end Transaction
end SqlSession
