/-!
# Bytes of a text

A text is stored as the UTF-8 bytes of its characters.  Every character below 128 is one byte, which
is its number, and the bytes of all other characters are 128 or more.  So a byte below 128 always
stands for a character of its own (`utf8EncodeChar_ascii` and `le_of_mem_utf8EncodeChar`).
-/

namespace SqlSession
namespace Text

def utf8 (cs : List Char) : List UInt8 := cs.flatMap String.utf8EncodeChar

/-- The text that some bytes stand for, if they are well formed. -/
def decode? (bytes : List UInt8) : Option String := String.fromUTF8? bytes.toByteArray

theorem utf8_nil : utf8 [] = [] := rfl

theorem utf8_cons (c : Char) (cs : List Char) :
    utf8 (c :: cs) = String.utf8EncodeChar c ++ utf8 cs := List.flatMap_cons

theorem utf8_append (cs ds : List Char) : utf8 (cs ++ ds) = utf8 cs ++ utf8 ds :=
  List.flatMap_append

/-! ## Single characters -/

theorem utf8EncodeChar_ascii {c : Char} (h : c.toNat < 128) :
    String.utf8EncodeChar c = [c.toUInt8] := by
  have hle : c.val.toNat ≤ 0x7f := Nat.le_of_lt_succ h
  unfold String.utf8EncodeChar
  rw [if_pos hle]
  rfl

theorem le_of_mem_utf8EncodeChar {c : Char} (h : 128 ≤ c.toNat) {b : UInt8}
    (hb : b ∈ String.utf8EncodeChar c) : 128 ≤ b.toNat := by
  have hnot : ¬ c.val.toNat ≤ 0x7f := Nat.not_le.mpr h
  unfold String.utf8EncodeChar at hb
  rw [if_neg hnot] at hb
  have hbyte : ∀ {n : Nat}, 128 ≤ n → n < 256 → 128 ≤ (UInt8.ofNat n).toNat := by
    intro n hn hlt
    rw [UInt8.toNat_ofNat_of_lt' hlt]
    exact hn
  split at hb
  · simp only [List.mem_cons, List.not_mem_nil, or_false] at hb
    rcases hb with rfl | rfl
    all_goals
      apply hbyte
      · omega
      · omega
  · split at hb
    · simp only [List.mem_cons, List.not_mem_nil, or_false] at hb
      rcases hb with rfl | rfl | rfl
      all_goals
        apply hbyte
        · omega
        · omega
    · simp only [List.mem_cons, List.not_mem_nil, or_false] at hb
      rcases hb with rfl | rfl | rfl | rfl
      all_goals
        apply hbyte
        · omega
        · omega

theorem utf8_cons_ascii {c : Char} (h : c.toNat < 128) (cs : List Char) :
    utf8 (c :: cs) = c.toUInt8 :: utf8 cs := by
  rw [utf8_cons, utf8EncodeChar_ascii h]
  rfl

theorem toNat_toUInt8 {c : Char} (h : c.toNat < 128) : c.toUInt8.toNat = c.toNat := by
  have hlt : c.val.toNat < 256 := Nat.lt_trans h (by decide)
  exact Nat.mod_eq_of_lt hlt

theorem toUInt8_inj {c d : Char} (hc : c.toNat < 128) (hd : d.toNat < 128) :
    c.toUInt8 = d.toUInt8 ↔ c = d := by
  constructor
  · intro h
    have hnat : c.toNat = d.toNat := by
      rw [← toNat_toUInt8 hc, ← toNat_toUInt8 hd, h]
    exact Char.ext (UInt32.toNat_inj.mp hnat)
  · intro heq
    subst heq
    rfl

/-- The byte of a character below 128 is no byte of any other character. -/
theorem eq_of_mem_utf8EncodeChar {c d : Char} (hd : d.toNat < 128)
    (h : d.toUInt8 ∈ String.utf8EncodeChar c) : c = d := by
  by_cases hc : c.toNat < 128
  · rw [utf8EncodeChar_ascii hc, List.mem_singleton, toUInt8_inj hd hc] at h
    exact h.symm
  · have hle := le_of_mem_utf8EncodeChar (Nat.le_of_not_lt hc) h
    rw [toNat_toUInt8 hd] at hle
    omega

theorem not_mem_utf8EncodeChar {c d : Char} (hd : d.toNat < 128) (h : c ≠ d) :
    d.toUInt8 ∉ String.utf8EncodeChar c :=
  fun hmem => h (eq_of_mem_utf8EncodeChar hd hmem)

theorem utf8_singleton (c : Char) : utf8 [c] = String.utf8EncodeChar c := by
  rw [utf8_cons, utf8_nil, List.append_nil]

theorem utf8_singleton_ascii {c : Char} (h : c.toNat < 128) : utf8 [c] = [c.toUInt8] := by
  rw [utf8_singleton, utf8EncodeChar_ascii h]

/-- A text starts with a byte below 128 only if it starts with the character of that byte. -/
theorem head?_utf8 {d : Char} (hd : d.toNat < 128) (cs : List Char) :
    (utf8 cs).head? = some d.toUInt8 ↔ cs.head? = some d := by
  cases cs with
  | nil => exact ⟨nofun, nofun⟩
  | cons c cs =>
    constructor
    · intro h
      have hmem : d.toUInt8 ∈ String.utf8EncodeChar c := by
        rw [utf8_cons] at h
        cases hbytes : String.utf8EncodeChar c with
        | nil => exact absurd hbytes String.utf8EncodeChar_ne_nil
        | cons b bytes =>
          rw [hbytes] at h
          rw [← Option.some.inj h]
          exact List.mem_cons_self
      exact congrArg some (eq_of_mem_utf8EncodeChar hd hmem)
    · intro h
      obtain rfl : c = d := Option.some.inj h
      rw [utf8_cons_ascii hd]
      rfl

/-- Whether a text starts with some characters below 128 can be seen from its bytes. -/
theorem prefix_utf8 {ds : List Char} (hds : ∀ d ∈ ds, d.toNat < 128) (cs : List Char) :
    utf8 ds <+: utf8 cs ↔ ds <+: cs := by
  induction ds generalizing cs with
  | nil => exact ⟨fun _ => List.nil_prefix, fun _ => List.nil_prefix⟩
  | cons d ds ih =>
    have hd : d.toNat < 128 := hds d List.mem_cons_self
    have hrest := ih (fun x hx => hds x (List.mem_cons_of_mem d hx))
    rw [utf8_cons_ascii hd]
    constructor
    · intro hgiven
      obtain ⟨bytes, hbytes⟩ := hgiven
      have hhead : (utf8 cs).head? = some d.toUInt8 := by rw [← hbytes]; rfl
      cases cs with
      | nil => cases hhead
      | cons c cs =>
        obtain rfl : c = d := Option.some.inj ((head?_utf8 hd _).mp hhead)
        rw [utf8_cons_ascii hd] at hbytes
        have htail : utf8 ds <+: utf8 cs := ⟨bytes, (List.cons.inj hbytes).2⟩
        exact List.cons_prefix_cons.mpr ⟨rfl, (hrest cs).mp htail⟩
    · intro hgiven
      obtain ⟨tail, rfl⟩ := hgiven
      rw [List.cons_append, utf8_cons_ascii hd, utf8_append]
      exact ⟨utf8 tail, rfl⟩

/-! ## Whole texts -/

theorem utf8_toList (s : String) : (utf8 s.toList).toByteArray = s.toUTF8 := by
  rw [String.toUTF8_eq_toByteArray, ← String.utf8Encode_toList]
  rfl

theorem decode?_utf8 (cs : List Char) : decode? (utf8 cs) = some (String.ofList cs) := by
  have hvalid : (utf8 cs).toByteArray.IsValidUTF8 := ⟨cs, rfl⟩
  unfold decode? String.fromUTF8?
  rw [dif_pos hvalid]
  refine congrArg some (String.toByteArray_inj.mp ?_)
  rw [String.toByteArray_ofList]
  rfl

theorem length_utf8 (cs : List Char) : (utf8 cs).length = (String.ofList cs).utf8ByteSize := by
  rw [← String.size_toByteArray, String.toByteArray_ofList]
  exact List.size_toByteArray.symm

end Text
end SqlSession
