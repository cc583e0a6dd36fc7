import SqlSession.Connection.Version
import SqlSession.Proofs.Effect
import SqlSession.Proofs.Text.Trim

/-!
# Versions in their surroundings

The version in a text is the runs of digits at its first digit, up to three of them with points
between them.  `Spread` says where they stand without saying how they are found.  A text has one
such spread if it has a digit, and it is the one that is read.
-/

namespace SqlSession

open Text (isDecimalDigit digitZeros)

namespace Text

/-- The only decimal digits in ASCII are the ones that have a value. -/
theorem isDigit_iff_of_isDecimalDigit {c : Char} (h : isDecimalDigit c = true) :
    c.isDigit = true ↔ c.toNat < 128 := by
  have hzeros : ∀ first ∈ digitZeros, first = 48 ∨ 128 ≤ first := by decide
  have hdigit : c.isDigit = true ↔ 48 ≤ c.toNat ∧ c.toNat ≤ 57 := Char.isDigit_iff_toNat
  simp only [isDecimalDigit, List.any_eq_true, Bool.and_eq_true, decide_eq_true_eq] at h
  obtain ⟨first, hfirst, hlow, hhigh⟩ := h
  have hcases := hzeros first hfirst
  rw [hdigit]
  omega

end Text

namespace Unsigned

theorem le_ofDigitChars (acc : Nat) (cs : List Char) : acc ≤ Nat.ofDigitChars 10 cs acc := by
  rw [Nat.ofDigitChars_eq_ofDigitChars_zero]
  have hpos : acc ≤ 10 ^ cs.length * acc := Nat.le_mul_of_pos_left acc (Nat.pow_pos (by decide))
  omega

/-- A number is read if there are only ASCII digits and the whole number has 32 bits.  No number on
the way is larger than the whole. -/
theorem extend_eq_ok {acc n : Nat} {cs : List Char} (hacc : acc < UInt32.size) :
    extend acc cs = .ok n ↔
      (∀ c ∈ cs, c.isDigit = true) ∧ Nat.ofDigitChars 10 cs acc = n ∧ n < UInt32.size := by
  induction cs generalizing acc with
  | nil =>
    have hsame : extend acc [] = .ok n ↔ acc = n := ⟨Except.ok.inj, congrArg Except.ok⟩
    rw [hsame, Nat.ofDigitChars_nil]
    constructor
    · intro hn
      exact ⟨fun c hc => absurd hc List.not_mem_nil, hn, hn ▸ hacc⟩
    · exact fun h => h.2.1
  | cons c rest ih =>
    rw [extend, Nat.ofDigitChars_cons, Nat.mul_comm 10 acc, List.forall_mem_cons]
    by_cases hc : c.isDigit = true
    · rw [if_pos hc]
      by_cases hnext : acc * 10 + (c.toNat - '0'.toNat) < UInt32.size
      · simp only [if_pos hnext, ih hnext, hc, true_and]
      · have hle := le_ofDigitChars (acc * 10 + (c.toNat - '0'.toNat)) rest
        simp only [if_neg hnext]
        constructor
        · intro h
          cases h
        · intro h
          omega
    · rw [if_neg hc]
      constructor
      · intro h
        cases h
      · exact fun h => absurd h.1.1 hc

/-- Without a sign all characters are digits of the number. -/
theorem read_eq_extend {cs : List Char} (hne : cs ≠ []) (hsign : '+' ∉ cs) :
    read (String.ofList cs) = UInt32.ofNat <$> extend 0 cs := by
  rw [read, String.toList_ofList]
  split
  case h_1 => exact absurd rfl hne
  case h_2 => exact absurd List.mem_cons_self hsign
  case h_3 => exact absurd List.mem_cons_self hsign
  case h_4 => rfl

end Unsigned

namespace Version

/-! ## Runs of digits -/

def IsRun (run : List Char) : Prop :=
  run ≠ [] ∧ ∀ c ∈ run, isDecimalDigit c = true

/-- No digit is next. -/
def Ended (cs : List Char) : Prop :=
  ∀ c rest, cs = c :: rest → isDecimalDigit c = false

/-- A point and a digit are next. -/
def Continued (cs : List Char) : Prop :=
  ∃ c rest, cs = '.' :: c :: rest ∧ isDecimalDigit c = true

/-- The run has only ASCII digits and is the number `n` in decimal. -/
def Reads (run : List Char) (n : UInt32) : Prop :=
  (∀ c ∈ run, c.toNat < 128) ∧ Nat.ofDigitChars 10 run 0 = n.toNat

/-- The run has a digit that is not an ASCII digit, or its number takes more than 32 bits. -/
def Unreadable (run : List Char) : Prop :=
  (∃ c ∈ run, 128 ≤ c.toNat) ∨ UInt32.size ≤ Nat.ofDigitChars 10 run 0

theorem number_eq_ok {raw : String} {run : List Char} {n : UInt32} (hrun : IsRun run) :
    number raw run = .ok n ↔ Reads run n := by
  obtain ⟨hne, hdigits⟩ := hrun
  -- The reader of numbers takes a sign, but a sign is no digit and stands in no run.
  have hsign : '+' ∉ run := by
    intro hplus
    have hdigit := hdigits _ hplus
    revert hdigit
    decide
  have hascii : (∀ c ∈ run, c.isDigit = true) ↔ ∀ c ∈ run, c.toNat < 128 :=
    forall₂_congr fun c hc => Text.isDigit_iff_of_isDecimalDigit (hdigits c hc)
  have hnumber : number raw run = .ok n ↔ ∃ m, Unsigned.extend 0 run = .ok m ∧ UInt32.ofNat m = n := by
    rw [number, Unsigned.read_eq_extend hne hsign]
    cases Unsigned.extend 0 run with
    | ok m => simp [Functor.map, Except.map]
    | error reason => simp [Functor.map, Except.map]
  rw [hnumber, Reads, ← hascii]
  constructor
  · rintro ⟨m, hm, rfl⟩
    obtain ⟨hall, hvalue, hlt⟩ := (Unsigned.extend_eq_ok (by decide)).mp hm
    exact ⟨hall, by rw [hvalue, UInt32.toNat_ofNat_of_lt' hlt]⟩
  · rintro ⟨hall, hvalue⟩
    exact ⟨n.toNat, (Unsigned.extend_eq_ok (by decide)).mpr ⟨hall, hvalue, n.toNat_lt⟩,
      UInt32.ofNat_toNat⟩

theorem reads_or_unreadable (run : List Char) : (∃ n, Reads run n) ∨ Unreadable run := by
  by_cases hascii : ∀ c ∈ run, c.toNat < 128
  · by_cases hlt : Nat.ofDigitChars 10 run 0 < UInt32.size
    · exact .inl ⟨UInt32.ofNat (Nat.ofDigitChars 10 run 0), hascii,
        (UInt32.toNat_ofNat_of_lt' hlt).symm⟩
    · exact .inr (.inr (Nat.le_of_not_lt hlt))
  · simp only [not_forall, Nat.not_lt] at hascii
    obtain ⟨c, hc, hlarge⟩ := hascii
    exact .inr (.inl ⟨c, hc, hlarge⟩)

theorem Reads.not_unreadable {run : List Char} {n : UInt32} (h : Reads run n) :
    ¬ Unreadable run := by
  rintro (⟨c, hc, hlarge⟩ | hlarge)
  · have hsmall := h.1 c hc
    omega
  · have hlt := n.toNat_lt
    rw [h.2] at hlarge
    exact absurd hlt (Nat.not_lt.mpr hlarge)

theorem isRun_toDigits (n : Nat) : IsRun (Nat.toDigits 10 n) := by
  refine ⟨Nat.toDigits_ne_nil, fun c hc => ?_⟩
  exact Text.isDecimalDigit_of_isDigit (Nat.isDigit_of_mem_toDigits (by decide) (by decide) hc)

theorem reads_toDigits (n : UInt32) : Reads (Nat.toDigits 10 n.toNat) n := by
  refine ⟨fun c hc => ?_, Nat.ofDigitChars_ten_toDigits⟩
  have hdigit := Nat.isDigit_of_mem_toDigits (by decide) (by decide) hc
  exact (Text.isDigit_iff_of_isDecimalDigit (Text.isDecimalDigit_of_isDigit hdigit)).mp hdigit

/-! ## Numbers after points -/

theorem takeWhile_run {run rest : List Char} (hrun : ∀ c ∈ run, isDecimalDigit c = true)
    (hrest : Ended rest) :
    (run ++ rest).takeWhile isDecimalDigit = run ∧ (run ++ rest).dropWhile isDecimalDigit = rest := by
  have hhead : rest.head?.any isDecimalDigit = false := by
    cases rest with
    | nil => rfl
    | cons c rest => exact hrest c rest rfl
  constructor
  · rw [List.takeWhile_append_of_pos hrun]
    cases rest with
    | nil => simp
    | cons c rest => simp [hrest c rest rfl]
  · exact Text.dropWhile_append hrun hhead

theorem ended_dropWhile (cs : List Char) : Ended (cs.dropWhile isDecimalDigit) := by
  intro c rest h
  have hhead := Text.head?_dropWhile isDecimalDigit cs
  rw [h] at hhead
  exact hhead

theorem nextNumber?_of_run {run rest : List Char} (hrun : IsRun run) (hrest : Ended rest) :
    nextNumber? ('.' :: run ++ rest) = some (run, rest) := by
  obtain ⟨htake, hdrop⟩ := takeWhile_run hrun.2 hrest
  simp only [List.cons_append, nextNumber?, htake, hdrop]
  cases run with
  | nil => exact absurd rfl hrun.1
  | cons c run => rfl

theorem nextNumber?_of_not_continued {cs : List Char} (h : ¬ Continued cs) :
    nextNumber? cs = none := by
  unfold nextNumber?
  split
  · next rest =>
    cases rest with
    | nil => rfl
    | cons c rest =>
      have hc : ¬ isDecimalDigit c = true := fun hc => h ⟨c, rest, rfl, hc⟩
      rw [List.takeWhile_cons_of_neg hc]
  · rfl

theorem of_nextNumber?_eq_some {cs run rest : List Char} (h : nextNumber? cs = some (run, rest)) :
    cs = '.' :: run ++ rest ∧ IsRun run ∧ Ended rest := by
  unfold nextNumber? at h
  split at h
  · next tail =>
    split at h
    · cases h
    · next hne =>
      cases h
      refine ⟨?_, ⟨hne, fun c hc => List.mem_takeWhile_imp hc⟩, ended_dropWhile tail⟩
      rw [List.cons_append, List.takeWhile_append_dropWhile]
  · cases h

theorem not_continued_of_nextNumber?_eq_none {cs : List Char} (h : nextNumber? cs = none) :
    ¬ Continued cs := by
  rintro ⟨c, rest, rfl, hc⟩
  simp only [nextNumber?, List.takeWhile_cons_of_pos hc] at h
  cases h

/-- Up to `limit` numbers with a point before each, and what follows them. -/
def followers : Nat → List Char → List (List Char) × List Char
  | 0, cs => ([], cs)
  | limit + 1, cs =>
    match nextNumber? cs with
    | none => ([], cs)
    | some (run, rest) => (run :: (followers limit rest).1, (followers limit rest).2)

/-- Runs with a point before each. -/
def dotted (rs : List (List Char)) : List Char :=
  rs.flatMap fun run => '.' :: run

/-- There are at most `limit` runs before `after`, the last one cannot be longer, and no other one
could be taken. -/
structure Followed (limit : Nat) (rs : List (List Char)) (after : List Char) : Prop where
  bounded : rs.length ≤ limit
  isRun : ∀ run ∈ rs, IsRun run
  ended : Ended after
  last : rs.length < limit → ¬ Continued after

theorem followed_cons {limit : Nat} {run : List Char} {rs : List (List Char)} {after : List Char} :
    Followed (limit + 1) (run :: rs) after ↔ IsRun run ∧ Followed limit rs after := by
  constructor
  · rintro ⟨hbounded, hrun, hended, hlast⟩
    obtain ⟨hfirst, hothers⟩ := List.forall_mem_cons.mp hrun
    exact ⟨hfirst, Nat.le_of_succ_le_succ hbounded, hothers, hended,
      fun hlt => hlast (Nat.succ_lt_succ hlt)⟩
  · rintro ⟨hfirst, hbounded, hothers, hended, hlast⟩
    exact ⟨Nat.succ_le_succ hbounded, List.forall_mem_cons.mpr ⟨hfirst, hothers⟩, hended,
      fun hlt => hlast (Nat.lt_of_succ_lt_succ hlt)⟩

theorem ended_dotted {rs : List (List Char)} {after : List Char} (h : Ended after) :
    Ended (dotted rs ++ after) := by
  cases rs with
  | nil => exact h
  | cons run rs =>
    rintro c rest ⟨⟩
    decide

theorem followers_of_followed {limit : Nat} {rs : List (List Char)} {after : List Char}
    (h : Followed limit rs after) : followers limit (dotted rs ++ after) = (rs, after) := by
  induction rs generalizing limit with
  | nil =>
    cases limit with
    | zero => rfl
    | succ limit =>
      simp only [dotted, List.flatMap_nil, List.nil_append, followers,
        nextNumber?_of_not_continued (h.last (Nat.zero_lt_succ limit))]
  | cons run rs ih =>
    -- What comes behind a run is the point of the next one, or what ends them all.
    cases limit with
    | zero => exact absurd h.bounded (Nat.not_succ_le_zero rs.length)
    | succ limit =>
      obtain ⟨hrun, hrest⟩ := followed_cons.mp h
      have hnext : nextNumber? (dotted (run :: rs) ++ after) = some (run, dotted rs ++ after) := by
        rw [← nextNumber?_of_run hrun (ended_dotted h.ended)]
        simp [dotted]
      simp only [followers, hnext, ih hrest]

theorem followed_followers (limit : Nat) {cs : List Char} (h : Ended cs) :
    Followed limit (followers limit cs).1 (followers limit cs).2 ∧
      cs = dotted (followers limit cs).1 ++ (followers limit cs).2 := by
  induction limit generalizing cs with
  | zero => exact ⟨⟨Nat.le_refl 0, nofun, h, nofun⟩, rfl⟩
  | succ limit ih =>
    cases hnext : nextNumber? cs with
    | none =>
      simp only [followers, hnext]
      exact ⟨⟨Nat.zero_le _, nofun, h, fun _ => not_continued_of_nextNumber?_eq_none hnext⟩, rfl⟩
    | some found =>
      obtain ⟨run, rest⟩ := found
      obtain ⟨rfl, hrun, hrest⟩ := of_nextNumber?_eq_some hnext
      obtain ⟨hfollowed, hsplit⟩ := ih hrest
      simp only [followers, hnext]
      refine ⟨followed_cons.mpr ⟨hrun, hfollowed⟩, ?_⟩
      nth_rewrite 1 [hsplit]
      simp [dotted]

/-! ## Where a version is in a text -/

/-- The version in the text `cs` is the runs `rs` with points between them.  It starts with the first
digit of the text. -/
structure Spread (cs before : List Char) (rs : List (List Char)) (after : List Char) : Prop where
  split : cs = before ++ ['.'].intercalate rs ++ after
  ahead : ∀ c ∈ before, isDecimalDigit c = false
  found : rs ≠ []
  followed : Followed 3 rs after

theorem intercalate_eq_dotted (run : List Char) (rs : List (List Char)) :
    ['.'].intercalate (run :: rs) = run ++ dotted rs := by
  induction rs generalizing run with
  | nil => simp [dotted]
  | cons next rs ih =>
    rw [List.intercalate_cons_cons, ih next]
    simp [dotted]

theorem runs_of_no_digit {cs : List Char} (h : ∀ c ∈ cs, isDecimalDigit c = false) :
    runs cs = [] := by
  have hstart : cs.dropWhile (fun c => !isDecimalDigit c) = [] := by
    rw [List.dropWhile_eq_nil_iff]
    intro c hc
    rw [h c hc]
    rfl
  simp only [runs, hstart, List.takeWhile_nil]

theorem runs_of_start {cs run rest : List Char}
    (hstart : cs.dropWhile (fun c => !isDecimalDigit c) = run ++ rest) (hrun : IsRun run)
    (hrest : Ended rest) : runs cs = run :: (followers 2 rest).1 := by
  obtain ⟨htake, hdrop⟩ := takeWhile_run hrun.2 hrest
  -- The two further looks for a number are the two rounds of `followers`.
  simp only [runs, hstart, htake, hdrop, followers]
  split
  · exact absurd rfl hrun.1
  · cases nextNumber? rest with
    | none => rfl
    | some minor =>
      obtain ⟨digits, more⟩ := minor
      cases hpatch : nextNumber? more <;> simp only [hpatch]

theorem runs_of_spread {cs before after : List Char} {rs : List (List Char)}
    (h : Spread cs before rs after) : runs cs = rs := by
  obtain ⟨rfl, hahead, hfound, hfollowed⟩ := h
  cases rs with
  | nil => exact absurd rfl hfound
  | cons run rs =>
    obtain ⟨hrun, hrest⟩ := followed_cons.mp hfollowed
    have hstart : (before ++ ['.'].intercalate (run :: rs) ++ after).dropWhile
        (fun c => !isDecimalDigit c) = run ++ (dotted rs ++ after) := by
      have hhead : (run ++ (dotted rs ++ after)).head?.any (fun c => !isDecimalDigit c) = false := by
        rw [List.head?_append_of_ne_nil _ hrun.1, List.head?_eq_some_head hrun.1, Option.any_some,
          hrun.2 _ (List.head_mem hrun.1)]
        rfl
      rw [intercalate_eq_dotted, List.append_assoc, List.append_assoc]
      exact Text.dropWhile_append (fun c hc => by simp [hahead c hc]) hhead
    rw [runs_of_start hstart hrun (ended_dotted hfollowed.ended), followers_of_followed hrest]

theorem exists_spread {cs : List Char} (h : ∃ c ∈ cs, isDecimalDigit c = true) :
    ∃ before rs after, Spread cs before rs after := by
  obtain ⟨digit, hmem, hdigit⟩ := h
  let start := cs.dropWhile fun c => !isDecimalDigit c
  have hne : start ≠ [] := by
    intro hnil
    have hall := List.dropWhile_eq_nil_iff.mp hnil digit hmem
    rw [hdigit] at hall
    cases hall
  have hrun : IsRun (start.takeWhile isDecimalDigit) := by
    refine ⟨fun hnil => ?_, fun c hc => List.mem_takeWhile_imp hc⟩
    have hhead := Text.head?_dropWhile (fun c => !isDecimalDigit c) cs
    cases hstart : start with
    | nil => exact hne hstart
    | cons c rest => 
      rw [show cs.dropWhile (fun c => !isDecimalDigit c) = c :: rest from hstart] at hhead
      rw [hstart, List.takeWhile_cons_of_pos (by simpa using hhead)] at hnil
      cases hnil
  obtain ⟨hfollowed, hsplit⟩ := followed_followers 2 (ended_dropWhile start)
  refine ⟨cs.takeWhile (fun c => !isDecimalDigit c), start.takeWhile isDecimalDigit ::
    (followers 2 (start.dropWhile isDecimalDigit)).1,
    (followers 2 (start.dropWhile isDecimalDigit)).2, ?_, ?_, List.cons_ne_nil _ _, ?_⟩
  · rw [intercalate_eq_dotted, List.append_assoc, List.append_assoc, ← hsplit,
      List.takeWhile_append_dropWhile, List.takeWhile_append_dropWhile]
  · intro c hc
    simpa using List.mem_takeWhile_imp hc
  · exact followed_cons.mpr ⟨hrun, hfollowed⟩

theorem no_digit_or_spread (cs : List Char) :
    (∀ c ∈ cs, isDecimalDigit c = false) ∨ ∃ before rs after, Spread cs before rs after := by
  by_cases hdigit : ∃ c ∈ cs, isDecimalDigit c = true
  · exact .inr (exists_spread hdigit)
  · simp only [not_exists, not_and, Bool.not_eq_true] at hdigit
    exact .inl hdigit

/-! ## Reading a version -/

/-- The version that the runs are.  A missing minor number is zero, and a missing patch is none. -/
inductive Denotes : List (List Char) → Version → Prop
  | one {a : List Char} {major : UInt32} (ha : Reads a major) : Denotes [a] ⟨major, 0, none⟩
  | two {a b : List Char} {major minor : UInt32} (ha : Reads a major) (hb : Reads b minor) :
    Denotes [a, b] ⟨major, minor, none⟩
  | three {a b c : List Char} {major minor patch : UInt32} (ha : Reads a major)
    (hb : Reads b minor) (hc : Reads c patch) : Denotes [a, b, c] ⟨major, minor, some patch⟩

theorem numbers_eq_ok {raw : String} {rs : List (List Char)} {ns : List UInt32}
    (hrs : ∀ run ∈ rs, IsRun run) : rs.mapM (number raw) = .ok ns ↔ List.Forall₂ Reads rs ns := by
  rw [Effect.check_mapM_eq_ok]
  constructor
  · intro h
    exact ((List.forall₂_and_left rs ns).mpr ⟨hrs, h⟩).imp fun _ _ hn => (number_eq_ok hn.1).mp hn.2
  · intro h
    exact ((List.forall₂_and_left rs ns).mpr ⟨hrs, h⟩).imp fun _ _ hn => (number_eq_ok hn.1).mpr hn.2

theorem parse_eq_ok {raw : String} {before after : List Char} {rs : List (List Char)} {v : Version}
    (h : Spread raw.toList before rs after) : parse raw = .ok v ↔ Denotes rs v := by
  rw [parse, runs_of_spread h, Effect.check_bind_eq_ok]
  simp only [numbers_eq_ok h.followed.isRun]
  obtain ⟨-, -, hfound, hbounded, -⟩ := h
  constructor
  · rintro ⟨ns, hns, hv⟩
    match rs, ns, hns with
    | [], _, _ => exact absurd rfl hfound
    | [a], [major], .cons ha .nil =>
      cases hv
      exact .one ha
    | [a, b], [major, minor], .cons ha (.cons hb .nil) =>
      cases hv
      exact .two ha hb
    | [a, b, c], [major, minor, patch], .cons ha (.cons hb (.cons hc .nil)) =>
      cases hv
      exact .three ha hb hc
    | _ :: _ :: _ :: _ :: more, _, _ =>
      simp only [List.length_cons] at hbounded
      omega
  · rintro (ha | ⟨ha, hb⟩ | ⟨ha, hb, hc⟩)
    · exact ⟨_, .cons ha .nil, rfl⟩
    · exact ⟨_, .cons ha (.cons hb .nil), rfl⟩
    · exact ⟨_, .cons ha (.cons hb (.cons hc .nil)), rfl⟩

theorem parse_of_no_digit {raw : String} (h : ∀ c ∈ raw.toList, isDecimalDigit c = false) :
    parse raw = .error (.version (.noDigits raw)) := by
  rw [parse, runs_of_no_digit h]
  rfl

/-- The runs are a version unless one of them has no number. -/
theorem denotes_or_unreadable {cs before after : List Char} {rs : List (List Char)}
    (h : Spread cs before rs after) : (∃ v, Denotes rs v) ∨ ∃ run ∈ rs, Unreadable run := by
  by_cases hbad : ∃ run ∈ rs, Unreadable run
  · exact .inr hbad
  · have hreads : ∀ run ∈ rs, ∃ n, Reads run n := fun run hrun =>
      (reads_or_unreadable run).resolve_right fun hunreadable => hbad ⟨run, hrun, hunreadable⟩
    obtain ⟨-, -, hfound, hbounded, -⟩ := h
    refine .inl ?_
    match rs, hreads with
    | [], _ => exact absurd rfl hfound
    | [a], hreads =>
      obtain ⟨major, ha⟩ := hreads a (by simp)
      exact ⟨_, .one ha⟩
    | [a, b], hreads =>
      obtain ⟨major, ha⟩ := hreads a (by simp)
      obtain ⟨minor, hb⟩ := hreads b (by simp)
      exact ⟨_, .two ha hb⟩
    | [a, b, c], hreads =>
      obtain ⟨major, ha⟩ := hreads a (by simp)
      obtain ⟨minor, hb⟩ := hreads b (by simp)
      obtain ⟨patch, hc⟩ := hreads c (by simp)
      exact ⟨_, .three ha hb hc⟩
    | _ :: _ :: _ :: _ :: more, _ =>
      simp only [List.length_cons] at hbounded
      omega

theorem Denotes.readable {rs : List (List Char)} {v : Version} (h : Denotes rs v) :
    ∀ run ∈ rs, ¬ Unreadable run := by
  cases h with
  | one ha => simp [ha.not_unreadable]
  | two ha hb => simp [ha.not_unreadable, hb.not_unreadable]
  | three ha hb hc => simp [ha.not_unreadable, hb.not_unreadable, hc.not_unreadable]

/-- A text has a version if it has runs that denote one. -/
theorem parse_eq_ok_iff {raw : String} {v : Version} :
    parse raw = .ok v ↔ ∃ before rs after, Spread raw.toList before rs after ∧ Denotes rs v := by
  constructor
  · intro hv
    obtain hdigit | ⟨before, rs, after, h⟩ := no_digit_or_spread raw.toList
    · rw [parse_of_no_digit hdigit] at hv
      cases hv
    · exact ⟨before, rs, after, h, (parse_eq_ok h).mp hv⟩
  · rintro ⟨before, rs, after, h, hv⟩
    exact (parse_eq_ok h).mpr hv

theorem parse_fails_iff {raw : String} :
    (∃ err, parse raw = .error err) ↔
      (∀ c ∈ raw.toList, isDecimalDigit c = false) ∨
        ∃ before rs after, Spread raw.toList before rs after ∧ ∃ run ∈ rs, Unreadable run := by
  constructor
  · rintro ⟨err, herr⟩
    obtain hdigit | ⟨before, rs, after, h⟩ := no_digit_or_spread raw.toList
    · exact .inl hdigit
    · refine .inr ⟨before, rs, after, h, (denotes_or_unreadable h).resolve_left ?_⟩
      rintro ⟨v, hv⟩
      rw [(parse_eq_ok h).mpr hv] at herr
      cases herr
  · rintro (hdigit | ⟨before, rs, after, h, run, hrun, hbad⟩)
    · exact ⟨_, parse_of_no_digit hdigit⟩
    · cases hparse : parse raw with
      | error err => exact ⟨err, rfl⟩
      | ok v => exact absurd hbad (((parse_eq_ok h).mp hparse).readable run hrun)

/-! ## Showing a version -/

/-- The digits of the numbers that are shown. -/
def shown (v : Version) : List (List Char) :=
  (v.major :: v.minor :: v.patch.toList).map fun n => Nat.toDigits 10 n.toNat

theorem toList_text (v : Version) : v.text.toList = ['.'].intercalate v.shown := by
  obtain ⟨major, minor, patch⟩ := v
  cases patch with
  | none => simp [text, shown, List.intercalate_cons_cons, toString]
  | some patch => simp [text, shown, List.intercalate_cons_cons, toString]

theorem denotes_shown (v : Version) : Denotes v.shown v := by
  obtain ⟨major, minor, patch⟩ := v
  cases patch with
  | none => exact .two (reads_toDigits major) (reads_toDigits minor)
  | some patch => exact .three (reads_toDigits major) (reads_toDigits minor) (reads_toDigits patch)

theorem followed_shown {v : Version} {after : List Char} (hended : Ended after)
    (hpatch : v.patch = none → ¬ Continued after) : Followed 3 v.shown after where
  bounded := by cases h : v.patch <;> simp [shown, h]
  isRun := by
    intro run hrun
    obtain ⟨n, -, rfl⟩ := List.mem_map.mp hrun
    exact isRun_toDigits n.toNat
  ended := hended
  last := by
    intro hlt
    refine hpatch ?_
    cases h : v.patch with
    | none => rfl
    | some patch => simp [shown, h] at hlt

theorem spread_shown {v : Version} {before after : String}
    (hbefore : ∀ c ∈ before.toList, isDecimalDigit c = false) (hended : Ended after.toList)
    (hpatch : v.patch = none → ¬ Continued after.toList) :
    Spread (before ++ v.text ++ after).toList before.toList v.shown after.toList where
  split := by rw [String.toList_append, String.toList_append, toList_text]
  ahead := hbefore
  found := by simp [shown]
  followed := followed_shown hended hpatch

/-- A version that is shown within other text is read again, unless the text before it has a digit
or the text after it goes on with the version.  A text has no version if it has no digit, or if one
of the up to three runs of digits at the first digit is not a number of 32 bits in ASCII digits.
Any other text has the version that the runs denote. -/
theorem parse_surrounded_and_fails_iff :
    (∀ (v : Version) (before after : String),
      (∀ c ∈ before.toList, isDecimalDigit c = false) → Ended after.toList →
      (v.patch = none → ¬ Continued after.toList) →
      parse (before ++ v.text ++ after) = .ok v) ∧
    ∀ raw : String,
      ((∃ err, parse raw = .error err) ↔
        (∀ c ∈ raw.toList, isDecimalDigit c = false) ∨
          ∃ before rs after, Spread raw.toList before rs after ∧ ∃ run ∈ rs, Unreadable run) ∧
      ∀ v, parse raw = .ok v ↔
        ∃ before rs after, Spread raw.toList before rs after ∧ Denotes rs v := by
  refine ⟨fun v before after hbefore hended hpatch => ?_, fun raw => ?_⟩
  · exact (parse_eq_ok (spread_shown hbefore hended hpatch)).mpr (denotes_shown v)
  · exact ⟨parse_fails_iff, fun v => parse_eq_ok_iff⟩

/-- A point without a digit after it ends a version.  A number of more than 32 bits is refused. -/
theorem parse_surrounded_and_fails_iff_beta :
    parse ("PostgreSQL " ++ text ⟨17, 0, none⟩ ++ ".beta1") = .ok ⟨17, 0, none⟩ ∧
      ∃ err, parse "PostgreSQL 4294967296.1" = .error err := by
  have hbefore : ∀ c ∈ "PostgreSQL ".toList, isDecimalDigit c = false := by
    have hnone : ("PostgreSQL ".toList.all fun c => !isDecimalDigit c) = true := by decide
    exact fun c hc => by simpa using List.all_eq_true.mp hnone c hc
  obtain ⟨hshown, hparse⟩ := parse_surrounded_and_fails_iff
  refine ⟨hshown ⟨17, 0, none⟩ "PostgreSQL " ".beta1" hbefore ?_ ?_, ?_⟩
  · rintro c rest ⟨⟩
    decide
  · rintro - ⟨c, rest, ⟨⟩, hc⟩
    revert hc
    decide
  · have hspread : Spread "PostgreSQL 4294967296.1".toList "PostgreSQL ".toList
        [Nat.toDigits 10 UInt32.size, Nat.toDigits 10 1] [] :=
      { split := by decide
        ahead := hbefore
        found := List.cons_ne_nil _ _
        followed :=
          { bounded := by decide
            isRun := by
              intro run hrun
              rcases List.mem_pair.mp hrun with rfl | rfl
              · exact isRun_toDigits _
              · exact isRun_toDigits _
            ended := nofun
            last := by rintro - ⟨c, rest, ⟨⟩, -⟩ } }
    have hlarge : Unreadable (Nat.toDigits 10 UInt32.size) :=
      .inr (Nat.le_of_eq Nat.ofDigitChars_ten_toDigits.symm)
    exact (hparse "PostgreSQL 4294967296.1").1.mpr
      (.inr ⟨_, _, _, hspread, _, List.mem_cons_self, hlarge⟩)

end Version
end SqlSession
