import SqlSession.Proofs.Statement.Scanner

/-!
# Names in bytes

Names and tags are made of characters below 128, so they can be found among the bytes of a text as
well as among its characters.
-/

namespace SqlSession
namespace Text

theorem toNat_ofUInt8 (b : UInt8) : (Char.ofUInt8 b).toNat = b.toNat := by
  unfold Char.ofUInt8 Char.toNat
  exact UInt8.toNat_toUInt32 b

theorem ofUInt8_toUInt8 {c : Char} (h : c.toNat < 128) : Char.ofUInt8 c.toUInt8 = c := by
  have hnat : (Char.ofUInt8 c.toUInt8).toNat = c.toNat := by
    rw [toNat_ofUInt8, toNat_toUInt8 h]
  exact Char.ext (UInt32.toNat_inj.mp hnat)

theorem ofUInt8_eq_iff {b : UInt8} {d : Char} (hd : d.toNat < 128) :
    Char.ofUInt8 b = d ↔ b = d.toUInt8 := by
  constructor
  · intro heq
    subst heq
    refine UInt8.toNat_inj.mp ?_
    rw [toNat_toUInt8 hd, toNat_ofUInt8]
  · intro heq
    subst heq
    exact ofUInt8_toUInt8 hd

def AsciiOnly (p : Char → Bool) : Prop := ∀ c, p c = true → c.toNat < 128

variable {p : Char → Bool}

theorem AsciiOnly.eq_false (hp : AsciiOnly p) {c : Char} (h : 128 ≤ c.toNat) : p c = false := by
  cases hc : p c with
  | false => rfl
  | true => exact absurd (hp c hc) (Nat.not_lt.mpr h)

/-- No byte of a character above 127 looks like a member of the class. -/
theorem AsciiOnly.eq_false_of_mem (hp : AsciiOnly p) {c : Char} (h : 128 ≤ c.toNat) {b : UInt8}
    (hb : b ∈ String.utf8EncodeChar c) : p (Char.ofUInt8 b) = false := by
  refine hp.eq_false ?_
  rw [toNat_ofUInt8]
  exact le_of_mem_utf8EncodeChar h hb

/-- The first byte of a text looks like the first character. -/
theorem AsciiOnly.head? (hp : AsciiOnly p) (cs : List Char) :
    ((utf8 cs).head?.any fun b => p (Char.ofUInt8 b)) = cs.head?.any p := by
  cases cs with
  | nil => rfl
  | cons c cs =>
    by_cases hc : c.toNat < 128
    · rw [utf8_cons_ascii hc]
      show p (Char.ofUInt8 c.toUInt8) = p c
      rw [ofUInt8_toUInt8 hc]
    · have hc : 128 ≤ c.toNat := Nat.le_of_not_lt hc
      rw [utf8_cons]
      cases hbytes : String.utf8EncodeChar c with
      | nil => exact absurd hbytes String.utf8EncodeChar_ne_nil
      | cons b bytes =>
        show p (Char.ofUInt8 b) = p c
        rw [hp.eq_false hc, hp.eq_false_of_mem hc (hbytes ▸ List.mem_cons_self)]

theorem AsciiOnly.getLast? (hp : AsciiOnly p) (bytes : List UInt8) (c : Char) :
    ((bytes ++ utf8 [c]).getLast?.any fun b => p (Char.ofUInt8 b)) = p c := by
  have hne : String.utf8EncodeChar c ≠ [] := String.utf8EncodeChar_ne_nil
  rw [utf8_singleton, List.getLast?_append, List.getLast?_eq_some_getLast hne, Option.some_or]
  show p (Char.ofUInt8 _) = p c
  by_cases hc : c.toNat < 128
  · simp only [utf8EncodeChar_ascii hc, List.getLast_singleton, ofUInt8_toUInt8 hc]
  · have hc : 128 ≤ c.toNat := Nat.le_of_not_lt hc
    rw [hp.eq_false hc, hp.eq_false_of_mem hc (List.getLast_mem hne)]

theorem AsciiOnly.takeWhile (hp : AsciiOnly p) (cs : List Char) :
    (utf8 cs).takeWhile (fun b => p (Char.ofUInt8 b)) = utf8 (cs.takeWhile p) := by
  induction cs with
  | nil => rfl
  | cons c cs ih =>
    cases hpc : p c with
    | true =>
      have hc := hp c hpc
      have hb : p (Char.ofUInt8 c.toUInt8) = true := by rw [ofUInt8_toUInt8 hc, hpc]
      rw [List.takeWhile_cons_of_pos hpc, utf8_cons_ascii hc, utf8_cons_ascii hc, ← ih]
      exact List.takeWhile_cons_of_pos hb
    | false =>
      have hneg : ¬ p c = true := by rw [hpc]; exact Bool.false_ne_true
      have hhead := hp.head? (c :: cs)
      rw [List.takeWhile_cons_of_neg hneg]
      cases hbytes : utf8 (c :: cs) with
      | nil => rfl
      | cons b bytes =>
        rw [hbytes] at hhead
        have hb : p (Char.ofUInt8 b) = false := hhead.trans hpc
        refine List.takeWhile_cons_of_neg ?_
        rw [hb]
        exact Bool.false_ne_true

theorem AsciiOnly.dropWhile (hp : AsciiOnly p) (cs : List Char) :
    (utf8 cs).dropWhile (fun b => p (Char.ofUInt8 b)) = utf8 (cs.dropWhile p) := by
  have hbytes : (utf8 cs).takeWhile (fun b => p (Char.ofUInt8 b)) ++
      (utf8 cs).dropWhile (fun b => p (Char.ofUInt8 b)) = utf8 cs :=
    List.takeWhile_append_dropWhile
  have hchars : utf8 (cs.takeWhile p) ++ utf8 (cs.dropWhile p) = utf8 cs := by
    rw [← utf8_append, List.takeWhile_append_dropWhile]
  rw [hp.takeWhile] at hbytes
  exact List.append_cancel_left (hbytes.trans hchars.symm)

end Text

namespace Statement

open Text

/-! ## Names -/

theorem asciiOnly_isDigit : AsciiOnly Char.isDigit := by
  intro c h
  simp only [Char.isDigit, Bool.and_eq_true, decide_eq_true_eq, ge_iff_le, UInt32.le_iff_toNat_le] at h
  have hle : c.toNat ≤ 57 := h.2
  omega

theorem asciiOnly_isAlpha : AsciiOnly Char.isAlpha := by
  intro c h
  unfold Char.isAlpha Char.isUpper Char.isLower at h
  simp only [Bool.or_eq_true, Bool.and_eq_true, decide_eq_true_eq, ge_iff_le,
    UInt32.le_iff_toNat_le] at h
  rcases h with h | h
  · have hle : c.toNat ≤ 90 := h.2
    omega
  · have hle : c.toNat ≤ 122 := h.2
    omega

theorem asciiOnly_isNameStart : AsciiOnly isNameStart := by
  intro c h
  rcases Bool.or_eq_true_iff.mp h with h | h
  · exact asciiOnly_isAlpha c h
  · rw [beq_iff_eq.mp h]
    decide

theorem asciiOnly_isNameChar : AsciiOnly isNameChar := by
  intro c h
  rcases Bool.or_eq_true_iff.mp h with h | h
  · rcases Bool.or_eq_true_iff.mp h with h | h
    · exact asciiOnly_isAlpha c h
    · exact asciiOnly_isDigit c h
  · rw [beq_iff_eq.mp h]
    decide

theorem not_isBlank {c : Char} (hlow : 32 < c.toNat) (hhigh : c.toNat < 128) :
    Text.isBlank c = false := by
  simp only [Text.isBlank, Bool.or_eq_false_iff, Bool.and_eq_false_iff, decide_eq_false_iff_not,
    beq_eq_false_iff_ne]
  omega

theorem not_isBlank_of_isNameChar {c : Char} (hc : isNameChar c = true) :
    Text.isBlank c = false := by
  refine not_isBlank ?_ (asciiOnly_isNameChar c hc)
  have hlow : 48 ≤ c.toNat := by
    unfold isNameChar Char.isAlphanum Char.isAlpha Char.isUpper Char.isLower Char.isDigit at hc
    simp only [Bool.or_eq_true, Bool.and_eq_true, decide_eq_true_eq, beq_iff_eq, ge_iff_le,
      UInt32.le_iff_toNat_le] at hc
    rcases hc with ((hupper | hlower) | hdigit) | rfl
    · exact Nat.le_trans (by decide) hupper.1
    · exact Nat.le_trans (by decide) hlower.1
    · exact hdigit.1
    · decide
  omega

def isAttaching (c : Char) : Bool := isNameChar c || c == ':' || c == '@'

theorem asciiOnly_isAttaching : AsciiOnly isAttaching := by
  intro c h
  rcases Bool.or_eq_true_iff.mp h with h | h
  · rcases Bool.or_eq_true_iff.mp h with h | h
    · exact asciiOnly_isNameChar c h
    · rw [beq_iff_eq.mp h]
      decide
  · rw [beq_iff_eq.mp h]
    decide

/-! ## Special characters -/

/-- The characters that start a lexeme which is no plain character. -/
def specialChars : List Char := ['\'', '"', '-', '/', '$', ';', '@', ':']

theorem lt_of_mem_specialChars {d : Char} (h : d ∈ specialChars) : d.toNat < 128 := by
  have hall : (specialChars.all fun x => decide (x.toNat < 128)) = true := by decide
  exact of_decide_eq_true (List.all_eq_true.mp hall d h)

theorem not_mem_specialChars {p : Char → Bool} (hp : (specialChars.all fun d => !p d) = true)
    {c : Char} (hc : p c = true) : c ∉ specialChars := by
  intro hmem
  have hnot := List.all_eq_true.mp hp c hmem
  rw [hc] at hnot
  cases hnot

/-! ## Tags -/

theorem tag?_utf8 (cs : List Char) :
    tag? (utf8 cs) = (dollarTag? cs).map fun found => (utf8 found.1, utf8 found.2) := by
  have hdigit : (utf8 cs).head?.any isDigitByte = cs.head?.any Char.isDigit :=
    asciiOnly_isDigit.head? cs
  have htake : (utf8 cs).takeWhile isNameByte = utf8 (cs.takeWhile isNameChar) :=
    asciiOnly_isNameChar.takeWhile cs
  have hdrop : (utf8 cs).dropWhile isNameByte = utf8 (cs.dropWhile isNameChar) :=
    asciiOnly_isNameChar.dropWhile cs
  unfold tag? dollarTag?
  rw [hdigit, hdrop, htake]
  cases cs.head?.any Char.isDigit with
  | true => rfl
  | false =>
    cases hrest : cs.dropWhile isNameChar with
    | nil => rfl
    | cons c body =>
      by_cases hc : c = '$'
      · subst hc
        rw [utf8_cons_ascii (by decide)]
        rfl
      · have hhead : ¬ (utf8 (c :: body)).head? = some '$'.toUInt8 := by
          rw [head?_utf8 (by decide)]
          exact fun h => hc (Option.some.inj h)
        cases hbytes : utf8 (c :: body) with
        | nil => simp [hc]
        | cons b bytes =>
          rw [hbytes] at hhead
          have hb : b ≠ '$'.toUInt8 := fun h => hhead (congrArg some h)
          simp [hb, hc]

theorem utf8_dollarMark (tag : List Char) :
    utf8 ('$' :: (tag ++ ['$'])) = dollarMark (utf8 tag) := by
  rw [utf8_cons_ascii (by decide), utf8_append, utf8_singleton_ascii (by decide)]
  rfl

/-! ## Placeholders -/

/-- The byte that has been passed last tells whether a sigil attaches to what stands before it. -/
def Agrees (before : Option Char) (passed : List UInt8) : Prop :=
  (passed.getLast?.any fun b => isAttaching (Char.ofUInt8 b)) = attaches before

theorem agrees_nil : Agrees none [] := rfl

/-- A sigil opens a placeholder in the bytes of a text where it does so in its characters. -/
theorem Agrees.opensPlaceholder {before : Option Char} {passed : List UInt8}
    (h : Agrees before passed) {sigil : Char} (hsigil : sigil = '@' ∨ sigil = ':')
    (rest : List Char) :
    Scanner.opensPlaceholder passed sigil.toUInt8 (utf8 rest) =
      (!attaches before && rest.head?.any isNameStart) := by
  have hbyte : ∀ b : UInt8, (isNameByte b || b = '@'.toUInt8 || b = ':'.toUInt8) =
      isAttaching (Char.ofUInt8 b) := by
    intro b
    have hat : (b = '@'.toUInt8) ↔ Char.ofUInt8 b = '@' := (ofUInt8_eq_iff (by decide)).symm
    have hcolon : (b = ':'.toUInt8) ↔ Char.ofUInt8 b = ':' := (ofUInt8_eq_iff (by decide)).symm
    simp only [isNameByte, isAttaching, hat, hcolon, Bool.or_right_comm, Bool.beq_eq_decide_eq]
  have hopens : (decide (sigil.toUInt8 = '@'.toUInt8) || decide (sigil.toUInt8 = ':'.toUInt8)) =
      true := by
    rcases hsigil with rfl | rfl
    · decide
    · decide
  have hhead : (utf8 rest).head?.any isNameStartByte = rest.head?.any isNameStart :=
    asciiOnly_isNameStart.head? rest
  unfold Scanner.opensPlaceholder
  rw [hopens, hhead, funext hbyte, h, Bool.true_and]

theorem agrees_append {text : List Char} (h : text ≠ []) (passed : List UInt8) :
    Agrees text.getLast? (passed ++ utf8 text) := by
  obtain ⟨cs, c, rfl⟩ : ∃ cs c, text = cs ++ [c] :=
    ⟨text.dropLast, text.getLast h, (List.dropLast_concat_getLast h).symm⟩
  unfold Agrees
  rw [utf8_append, ← List.append_assoc, asciiOnly_isAttaching.getLast?, List.getLast?_concat]
  rfl

end Statement
end SqlSession
