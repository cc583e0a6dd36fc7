import Mathlib.Data.List.Forall2
import Mathlib.Tactic.IntervalCases
import SqlSession.Proofs.Text.Utf8
import SqlSession.SqlState

/-!
# States and their codes

A state is a number in base 64 with five digits, the first character being the lowest digit
(`SqlState.pack_eq_mod_iff`).  So a state and its code determine each other (`SqlState.encode?_faithful`).

A code has two bits more than five characters need, and unpacking does not look at them.  A code in which
one of them is set is not the code of a state, and still it can be shown as one
(`SqlState.surfaced_iff`).
-/

namespace SqlSession
namespace SqlState

/-! ## Characters -/

theorem isStateChar_iff {c : Char} :
    isStateChar c = true ↔ (48 ≤ c.toNat ∧ c.toNat ≤ 57) ∨ (65 ≤ c.toNat ∧ c.toNat ≤ 90) := by
  have hupper : c.isUpper = true ↔ 65 ≤ c.toNat ∧ c.toNat ≤ 90 := decide_eq_true_iff
  rw [isStateChar, Bool.or_eq_true, Char.isDigit_iff_toNat, hupper]
  rfl

/-- A character is stored as its distance from the digit zero, which takes six bits. -/
theorem distance_of_isStateChar {c : Char} (h : isStateChar c = true) :
    '0'.toNat + (c.toNat - '0'.toNat) = c.toNat ∧ c.toNat - '0'.toNat < 64 := by
  have hzero : '0'.toNat = 48 := rfl
  have hrange := isStateChar_iff.mp h
  omega

/-! ## Digits of a number -/

theorem mapM_eq_some_iff {α β : Type} {f : α → Option β} {as : List α} {bs : List β} :
    as.mapM f = some bs ↔ List.Forall₂ (fun a b => f a = some b) as bs := by
  induction as generalizing bs with
  | nil => simp [eq_comm]
  | cons a as ih =>
    simp only [List.mapM_cons, Option.bind_eq_bind, Option.bind_eq_some_iff, ih,
      List.forall₂_cons_left_iff, Option.pure_def, Option.some.injEq]
    constructor
    · rintro ⟨b, hb, rest, hrest, rfl⟩
      exact ⟨b, rest, hb, hrest, rfl⟩
    · rintro ⟨b, rest, hb, hrest, rfl⟩
      exact ⟨b, hb, rest, hrest, rfl⟩

theorem exists_mapM_eq_some_iff {α β : Type} {f : α → Option β} {as : List α} :
    (∃ bs, as.mapM f = some bs) ↔ ∀ a ∈ as, (f a).isSome = true := by
  induction as with
  | nil => simp
  | cons a as ih =>
    rw [List.forall_mem_cons, ← ih, Option.isSome_iff_exists]
    simp only [List.mapM_cons, Option.bind_eq_bind, Option.bind_eq_some_iff, Option.pure_def,
      Option.some.injEq]
    constructor
    · rintro ⟨bs, b, hb, rest, hrest, rfl⟩
      exact ⟨⟨b, hb⟩, rest, hrest⟩
    · rintro ⟨⟨b, hb⟩, rest, hrest⟩
      exact ⟨b :: rest, b, hb, rest, hrest, rfl⟩

theorem mapM_range_eq_some_iff {α : Type} {f : Nat → Option α} {n : Nat} {as : List α} :
    (List.range n).mapM f = some as ↔ as.length = n ∧ ∀ i a, as[i]? = some a → f i = some a := by
  rw [mapM_eq_some_iff, List.forall₂_iff_get]
  simp only [List.length_range, List.get_eq_getElem, List.getElem_range, List.getElem?_eq_some_iff]
  constructor
  · rintro ⟨hlength, hat⟩
    refine ⟨hlength.symm, fun i a hgiven => ?_⟩
    obtain ⟨hi, rfl⟩ := hgiven
    exact hat i (by omega) hi
  · rintro ⟨hlength, hat⟩
    exact ⟨hlength.symm, fun i _ hi => hat i _ ⟨hi, rfl⟩⟩

/-- Some characters pack to the lower digits of a number if and only if each of them is the digit in its
place. -/
theorem pack_eq_mod_iff {cs : List Char} (h : ∀ c ∈ cs, isStateChar c = true) (n : Nat) :
    pack cs = n % 64 ^ cs.length ↔
      ∀ i c, cs[i]? = some c → c.toNat - '0'.toNat = n / 64 ^ i % 64 := by
  induction cs generalizing n with
  | nil => simp [pack, Nat.mod_one]
  | cons c rest ih =>
    obtain ⟨hc, hrest⟩ := List.forall_mem_cons.mp h
    have hsmall := (distance_of_isStateChar hc).2
    have hsplit : n % 64 ^ (rest.length + 1) = n % 64 + 64 * (n / 64 % 64 ^ rest.length) := by
      rw [Nat.pow_succ', Nat.mod_mul]
    rw [List.length_cons, hsplit, pack]
    constructor
    · intro hpack i d hd
      have hlow : c.toNat - '0'.toNat = n % 64 := by omega
      have hhigh : pack rest = n / 64 % 64 ^ rest.length := by omega
      cases i with
      | zero =>
        obtain rfl : c = d := by simpa using hd
        rw [hlow, Nat.pow_zero, Nat.div_one]
      | succ i =>
        rw [Nat.pow_succ', ← Nat.div_div_eq_div_mul]
        exact (ih hrest (n / 64)).mp hhigh i d hd
    · intro hdigits
      have hlow := hdigits 0 c rfl
      have hhigh : pack rest = n / 64 % 64 ^ rest.length := by
        refine (ih hrest (n / 64)).mpr fun i d hd => ?_
        rw [hdigits (i + 1) d hd, Nat.pow_succ', Nat.div_div_eq_div_mul]
      rw [Nat.pow_zero, Nat.div_one] at hlow
      rw [hlow, hhigh]

theorem pack_lt {cs : List Char} (h : ∀ c ∈ cs, isStateChar c = true) : pack cs < 64 ^ cs.length := by
  induction cs with
  | nil => simp [pack]
  | cons c rest ih =>
    obtain ⟨hc, hrest⟩ := List.forall_mem_cons.mp h
    have hsmall := (distance_of_isStateChar hc).2
    have hlt := ih hrest
    rw [pack, List.length_cons, Nat.pow_succ']
    omega

/-! ## Codes -/

/-- The number in the thirty lowest bits of a code, which are the bits of the five characters. -/
def lowBits (code : Int32) : Nat := (code.toInt % 2 ^ 30).toNat

theorem lowBits_lt (code : Int32) : lowBits code < 2 ^ 30 := by
  unfold lowBits
  omega

theorem lowBits_ofNat {n : Nat} (h : n < 2 ^ 30) : lowBits (Int32.ofNat n) = n := by
  unfold lowBits
  rw [Int32.toInt_ofNat_of_lt (by omega)]
  omega

/-- Only a code without the two highest bits is the number in its lowest bits. -/
theorem ofNat_lowBits_iff (code : Int32) :
    Int32.ofNat (lowBits code) = code ↔ 0 ≤ code.toInt ∧ code.toInt < 2 ^ 30 := by
  have hlt := lowBits_lt code
  rw [← Int32.toInt_inj, Int32.toInt_ofNat_of_lt (by omega)]
  unfold lowBits
  omega

theorem sixBits_eq (code : Int32) {i : Nat} (hi : i < 5) :
    sixBits code i = lowBits code / 64 ^ i % 64 := by
  unfold sixBits lowBits
  rw [Int.shiftRight_eq_div_pow]
  interval_cases i <;> omega

theorem charAt?_eq_some_iff {code : Int32} {i : Nat} {c : Char} :
    charAt? code i = some c ↔ isStateChar c = true ∧ c.toNat - '0'.toNat = sixBits code i := by
  have hsmall : sixBits code i < 64 := by
    unfold sixBits
    omega
  have hvalid : (Char.ofNat ('0'.toNat + sixBits code i)).toNat = '0'.toNat + sixBits code i := by
    have hzero : '0'.toNat = 48 := rfl
    have hchar : ('0'.toNat + sixBits code i).isValidChar := .inl (by omega)
    rw [Char.ofNat, dif_pos hchar]
    rfl
  unfold charAt?
  dsimp only
  constructor
  · intro h
    split at h
    · next hstate =>
      obtain rfl := Option.some.inj h
      exact ⟨hstate, by omega⟩
    · cases h
  · rintro ⟨hstate, hdistance⟩
    rw [← hdistance, (distance_of_isStateChar hstate).1, Char.ofNat_toNat]
    exact if_pos hstate

/-- The characters in a code are the five that pack to its lowest bits. -/
theorem chars_eq_some_iff {code : Int32} {cs : List Char} :
    (List.range 5).mapM (charAt? code) = some cs ↔
      cs.length = 5 ∧ (∀ c ∈ cs, isStateChar c = true) ∧ pack cs = lowBits code := by
  have hdigit : cs.length = 5 → ∀ i c, cs[i]? = some c →
      sixBits code i = lowBits code / 64 ^ i % 64 := by
    intro hlength i c hc
    have hi := (List.getElem?_eq_some_iff.mp hc).1
    exact sixBits_eq code (by omega)
  have hlow : cs.length = 5 → lowBits code = lowBits code % 64 ^ cs.length := by
    intro hlength
    rw [hlength]
    exact (Nat.mod_eq_of_lt (lowBits_lt code)).symm
  rw [mapM_range_eq_some_iff]
  constructor
  · rintro ⟨hlength, hchars⟩
    have hstate : ∀ c ∈ cs, isStateChar c = true := by
      intro c hmem
      obtain ⟨i, hc⟩ := List.mem_iff_getElem?.mp hmem
      exact (charAt?_eq_some_iff.mp (hchars i c hc)).1
    refine ⟨hlength, hstate, ?_⟩
    rw [hlow hlength]
    refine (pack_eq_mod_iff hstate _).mpr fun i c hc => ?_
    rw [(charAt?_eq_some_iff.mp (hchars i c hc)).2, hdigit hlength i c hc]
  · rintro ⟨hlength, hstate, hpack⟩
    rw [hlow hlength] at hpack
    refine ⟨hlength, fun i c hc => charAt?_eq_some_iff.mpr ⟨?_, ?_⟩⟩
    · exact hstate c (List.mem_of_getElem? hc)
    · rw [(pack_eq_mod_iff hstate _).mp hpack i c hc, hdigit hlength i c hc]

theorem encode?_eq_some_iff {s : String} {code : Int32} :
    encode? s = some code ↔
      (s.toList.length = 5 ∧ ∀ c ∈ s.toList, isStateChar c = true) ∧
        Int32.ofNat (pack s.toList) = code := by
  unfold encode?
  simp [List.all_eq_true]

/-- The characters of a state are those in its code, and no number but its code is left of them. -/
theorem chars_of_encode? {s : String} {code : Int32} (h : encode? s = some code) :
    (List.range 5).mapM (charAt? code) = some s.toList ∧ Int32.ofNat (lowBits code) = code := by
  obtain ⟨⟨hlength, hstate⟩, rfl⟩ := encode?_eq_some_iff.mp h
  have hlt : pack s.toList < 2 ^ 30 := by
    have hpack := pack_lt hstate
    rwa [hlength] at hpack
  rw [chars_eq_some_iff, lowBits_ofNat hlt]
  exact ⟨⟨hlength, hstate, rfl⟩, rfl⟩

theorem decode_of_chars {code : Int32} {cs : List Char}
    (h : (List.range 5).mapM (charAt? code) = some cs) :
    decode code = String.ofList cs ∧ encode? (decode code) = some (Int32.ofNat (lowBits code)) := by
  have hdecode : decode code = String.ofList cs := by
    unfold decode
    rw [h]
  obtain ⟨hlength, hstate, hpack⟩ := chars_eq_some_iff.mp h
  refine ⟨hdecode, ?_⟩
  rw [hdecode, encode?_eq_some_iff, String.toList_ofList, hpack]
  exact ⟨⟨hlength, hstate⟩, rfl⟩

theorem decode_of_encode? {s : String} {code : Int32} (h : encode? s = some code) :
    decode code = s := by
  rw [(decode_of_chars (chars_of_encode? h).1).1, String.ofList_toList]

/-! ## Bits of a word

The same code is what a loop over the bytes of a state makes, which puts the six bits of each byte into
their place in a word. -/

def isStateByte (b : UInt8) : Bool := isStateChar (Char.ofUInt8 b)

/-- Puts the six bits of a byte into a word. -/
def putSixBits (word : BitVec 32) (i : Nat) (b : UInt8) : BitVec 32 :=
  word ||| ((b - 48).toBitVec.setWidth 32 &&& 63#32) <<< (6 * i)

/-- Puts bytes into a word from a place on, as long as they are bytes of a state. -/
def putBytes? (word : BitVec 32) (i : Nat) : List UInt8 → Option (BitVec 32)
  | [] => some word
  | b :: rest => if isStateByte b then putBytes? (putSixBits word i b) (i + 1) rest else none

def encodeBytes? (bytes : List UInt8) : Option Int32 :=
  if bytes.length = 5 then (putBytes? 0 0 bytes).map fun word => ⟨⟨word⟩⟩ else none

theorem toNat_lt_of_isStateChar {c : Char} (h : isStateChar c = true) : c.toNat < 128 := by
  have hrange := isStateChar_iff.mp h
  omega

theorem isStateByte_toUInt8 {c : Char} (h : c.toNat < 128) :
    isStateByte c.toUInt8 = isStateChar c := by
  have hchar : Char.ofUInt8 c.toUInt8 = c := by
    refine Char.ext (UInt32.toNat_inj.mp ?_)
    show c.toUInt8.toUInt32.toNat = c.toNat
    rw [UInt8.toNat_toUInt32, Text.toNat_toUInt8 h]
  rw [isStateByte, hchar]

theorem not_isStateByte {b : UInt8} (h : 128 ≤ b.toNat) : isStateByte b = false := by
  refine Bool.eq_false_iff.mpr fun hstate => ?_
  have hlt : (Char.ofUInt8 b).toNat < 128 := toNat_lt_of_isStateChar hstate
  have hsame : (Char.ofUInt8 b).toNat = b.toNat := UInt8.toNat_toUInt32 b
  omega

/-- A word with nothing in the bits of a place and above gets the distance of a character there. -/
theorem toNat_putSixBits {word : BitVec 32} {i : Nat} {c : Char} (hword : word.toNat < 64 ^ i)
    (hi : i < 5) (hc : isStateChar c = true) :
    (putSixBits word i c.toUInt8).toNat = word.toNat + 64 ^ i * (c.toNat - '0'.toNat) := by
  obtain ⟨hzero, hsmall⟩ := distance_of_isStateChar hc
  have hbyte : (c.toUInt8 - 48).toNat = c.toNat - '0'.toNat := by
    have hle : (48 : UInt8) ≤ c.toUInt8 := by
      rw [UInt8.le_iff_toNat_le, Text.toNat_toUInt8 (toNat_lt_of_isStateChar hc)]
      exact hzero ▸ Nat.le_add_right _ _
    rw [UInt8.toNat_sub_of_le _ _ hle, Text.toNat_toUInt8 (toNat_lt_of_isStateChar hc)]
    rfl
  have hpow : 64 ^ i = 2 ^ (6 * i) := by rw [Nat.pow_mul]
  generalize c.toNat - '0'.toNat = d at hsmall hbyte
  have hmasked : ((c.toUInt8 - 48).toBitVec.setWidth 32 &&& 63#32).toNat = d := by
    have hsame : (c.toUInt8 - 48).toBitVec.toNat = d := hbyte
    rw [BitVec.toNat_and, BitVec.toNat_setWidth, hsame, Nat.mod_eq_of_lt (by omega)]
    show d &&& 2 ^ 6 - 1 = d
    rw [Nat.and_two_pow_sub_one_eq_mod, Nat.mod_eq_of_lt hsmall]
  have hfits : d <<< (6 * i) < 2 ^ 32 := by
    rw [Nat.shiftLeft_eq, ← hpow]
    interval_cases i <;> omega
  rw [putSixBits, BitVec.toNat_or, BitVec.toNat_shiftLeft, hmasked, Nat.mod_eq_of_lt hfits,
    Nat.or_comm, ← Nat.shiftLeft_add_eq_or_of_lt (hpow ▸ hword), Nat.shiftLeft_eq, hpow,
    Nat.add_comm, Nat.mul_comm]

/-- The bytes of a state are packed like its characters. -/
theorem putBytes?_state {cs : List Char} (h : ∀ c ∈ cs, isStateChar c = true) {word : BitVec 32}
    {i : Nat} (hword : word.toNat < 64 ^ i) (hi : i + cs.length ≤ 5) :
    ∃ word', putBytes? word i (Text.utf8 cs) = some word' ∧
      word'.toNat = word.toNat + 64 ^ i * pack cs := by
  induction cs generalizing word i with
  | nil => exact ⟨word, rfl, rfl⟩
  | cons c rest ih =>
    obtain ⟨hc, hrest⟩ := List.forall_mem_cons.mp h
    have hascii := toNat_lt_of_isStateChar hc
    rw [List.length_cons] at hi
    have hput := toNat_putSixBits hword (by omega) hc
    have hsmall := (distance_of_isStateChar hc).2
    have hnext : (putSixBits word i c.toUInt8).toNat < 64 ^ (i + 1) := by
      calc (putSixBits word i c.toUInt8).toNat
          = word.toNat + 64 ^ i * (c.toNat - '0'.toNat) := hput
        _ < 64 ^ i + 64 ^ i * (c.toNat - '0'.toNat) := Nat.add_lt_add_right hword _
        _ = 64 ^ i * (c.toNat - '0'.toNat + 1) := by rw [Nat.mul_succ, Nat.add_comm]
        _ ≤ 64 ^ (i + 1) := Nat.mul_le_mul_left _ hsmall
    obtain ⟨word', hword', hnat⟩ := ih hrest hnext (by omega)
    refine ⟨word', ?_, ?_⟩
    · rw [Text.utf8_cons_ascii hascii, putBytes?, isStateByte_toUInt8 hascii, if_pos hc, hword']
    · rw [hnat, hput, pack, Nat.pow_succ, Nat.mul_add, Nat.mul_assoc, Nat.add_assoc]

theorem putBytes?_eq_none {bytes : List UInt8} {b : UInt8} (hb : b ∈ bytes)
    (h : isStateByte b = false) (word : BitVec 32) (i : Nat) : putBytes? word i bytes = none := by
  induction bytes generalizing word i with
  | nil => cases hb
  | cons first rest ih =>
    rw [putBytes?]
    split
    · next hfirst =>
      obtain rfl | hrest := List.mem_cons.mp hb
      · rw [h] at hfirst
        cases hfirst
      · exact ih hrest _ _
    · rfl

/-- A character that no state has takes a byte that no state has. -/
theorem exists_byte_of_not_isStateChar {cs : List Char} {c : Char} (hc : c ∈ cs)
    (h : isStateChar c = false) : ∃ b ∈ Text.utf8 cs, isStateByte b = false := by
  have hbytes : ∃ b ∈ String.utf8EncodeChar c, isStateByte b = false := by
    by_cases hascii : c.toNat < 128
    · refine ⟨c.toUInt8, ?_, ?_⟩
      · rw [Text.utf8EncodeChar_ascii hascii]
        exact List.mem_cons_self
      · rw [isStateByte_toUInt8 hascii, h]
    · obtain ⟨b, rest, hchar⟩ := List.exists_cons_of_ne_nil (String.utf8EncodeChar_ne_nil (c := c))
      have hb : b ∈ String.utf8EncodeChar c := hchar ▸ List.mem_cons_self
      exact ⟨b, hb, not_isStateByte (Text.le_of_mem_utf8EncodeChar (Nat.le_of_not_lt hascii) hb)⟩
  obtain ⟨b, hb, hnot⟩ := hbytes
  exact ⟨b, List.mem_flatMap.mpr ⟨c, hc, hb⟩, hnot⟩

theorem length_utf8_of_ascii {cs : List Char} (h : ∀ c ∈ cs, c.toNat < 128) :
    (Text.utf8 cs).length = cs.length := by
  induction cs with
  | nil => rfl
  | cons c rest ih =>
    obtain ⟨hc, hrest⟩ := List.forall_mem_cons.mp h
    rw [Text.utf8_cons_ascii hc, List.length_cons, List.length_cons, ih hrest]

theorem encode?_eq_encodeBytes? (s : String) : encode? s = encodeBytes? (Text.utf8 s.toList) := by
  unfold encode? encodeBytes?
  dsimp only
  by_cases hall : ∀ c ∈ s.toList, isStateChar c = true
  · have hlength := length_utf8_of_ascii fun c hc => toNat_lt_of_isStateChar (hall c hc)
    rw [hlength]
    by_cases hfive : s.toList.length = 5
    · have hstart : (0 : BitVec 32).toNat < 64 ^ 0 := by decide
      obtain ⟨word, hword, hnat⟩ := putBytes?_state hall hstart (by omega)
      rw [if_pos ⟨hfive, List.all_eq_true.mpr hall⟩, if_pos hfive, hword, Option.map_some]
      have hpack : word.toNat = pack s.toList := by simpa using hnat
      have hbits : BitVec.ofNat 32 (pack s.toList) = word := by
        rw [← hpack, BitVec.ofNat_toNat, BitVec.setWidth_eq]
      rw [← hbits]
      rfl
    · rw [if_neg fun hgiven => hfive hgiven.1, if_neg hfive]
  · rw [if_neg fun hgiven => hall (List.all_eq_true.mp hgiven.2)]
    obtain ⟨c, hc, hnot⟩ : ∃ c ∈ s.toList, isStateChar c = false := by simpa using hall
    obtain ⟨b, hb, hbyte⟩ := exists_byte_of_not_isStateChar hc hnot
    rw [putBytes?_eq_none hb hbyte, Option.map_none, ite_self]

/-- Six bits of a code are had by a shift, which keeps the sign, and a mask. -/
theorem sixBits_eq_mask (code : Int32) (i : Nat) :
    sixBits code i = (code.toBitVec.sshiftRight (6 * i) &&& 63#32).toNat := by
  have hmask : (code.toBitVec.sshiftRight (6 * i) &&& 63#32).toNat =
      (code.toBitVec.sshiftRight (6 * i)).toNat % 64 := by
    rw [BitVec.toNat_and]
    show _ &&& 2 ^ 6 - 1 = _
    rw [Nat.and_two_pow_sub_one_eq_mod]
  have hshift : code.toInt >>> (6 * i) = (code.toBitVec.sshiftRight (6 * i)).toInt := by
    rw [BitVec.toInt_sshiftRight, Int32.toInt_toBitVec]
  rw [sixBits, hshift, hmask, BitVec.toInt_eq_toNat_cond]
  split <;> omega

/-! ## From states to codes and back -/

/-- Exactly the texts of five digits and capitals have a code.  It takes thirty bits, and the state can be
unpacked from it again, so that no other state has the same code.  The code is also what the bytes of the
state make if they are put into a word one by one. -/
theorem encode?_faithful (s : String) :
    ((encode? s).isSome ↔
      s.length = 5 ∧ ∀ c ∈ s.toList, ('0' ≤ c ∧ c ≤ '9') ∨ ('A' ≤ c ∧ c ≤ 'Z')) ∧
    encode? s = encodeBytes? (Text.utf8 s.toList) ∧
    ∀ code, encode? s = some code →
      0 ≤ code.toInt ∧ code.toInt < 2 ^ 30 ∧ decode code = s ∧
        ∀ s', encode? s' = some code → s' = s := by
  have hstate : ∀ c, isStateChar c = true ↔ ('0' ≤ c ∧ c ≤ '9') ∨ ('A' ≤ c ∧ c ≤ 'Z') :=
    fun c => isStateChar_iff
  refine ⟨?_, encode?_eq_encodeBytes? s, fun code hcode => ?_⟩
  · rw [Option.isSome_iff_exists, ← String.length_toList]
    simp only [encode?_eq_some_iff, hstate, exists_and_left, exists_eq', and_true]
  · obtain ⟨hlow, hhigh⟩ := (ofNat_lowBits_iff code).mp (chars_of_encode? hcode).2
    have hdecode := decode_of_encode? hcode
    refine ⟨hlow, hhigh, hdecode, fun s' hcode' => ?_⟩
    rw [← hdecode, decode_of_encode? hcode']

/-- The state of a table that is not there goes into its code and comes out again. -/
theorem encode?_faithful_undefinedTable :
    encode? "42P01" = some 16908420 ∧ decode 16908420 = "42P01" ∧
      ∀ s, encode? s = some 16908420 → s = "42P01" := by
  have hcode : encode? "42P01" = some 16908420 := by decide +kernel
  obtain ⟨-, -, hdecode, hunique⟩ := (encode?_faithful "42P01").2.2 _ hcode
  exact ⟨hcode, hdecode, hunique⟩

/-! ## Codes of any kind -/

/-- The six bits in each place of the code stand for a character. -/
def Unpacks (code : Int32) : Prop := ∀ i < 5, (charAt? code i).isSome = true

/-- The code has thirty bits, as five characters do. -/
def InRange (code : Int32) : Prop := 0 ≤ code.toInt ∧ code.toInt < 2 ^ 30

theorem unpacks_iff {code : Int32} :
    Unpacks code ↔ ∃ cs, (List.range 5).mapM (charAt? code) = some cs := by
  rw [exists_mapM_eq_some_iff]
  simp only [List.mem_range, Unpacks]

theorem encode?_decode_of_unpacks {code : Int32} (h : Unpacks code) :
    encode? (decode code) = some (Int32.ofNat (lowBits code)) := by
  obtain ⟨cs, hcs⟩ := unpacks_iff.mp h
  exact (decode_of_chars hcs).2

theorem decode_of_not_unpacks {code : Int32} (h : ¬ Unpacks code) :
    decode code = toString code.toInt := by
  have hnone : (List.range 5).mapM (charAt? code) = none := by
    refine Option.eq_none_iff_forall_ne_some.mpr fun cs hcs => h (unpacks_iff.mpr ⟨cs, hcs⟩)
  unfold decode
  rw [hnone]

theorem unpacks_of_encode? {s : String} {code : Int32} (h : encode? s = some code) :
    Unpacks code ∧ InRange code := by
  obtain ⟨hchars, hlow⟩ := chars_of_encode? h
  exact ⟨unpacks_iff.mpr ⟨_, hchars⟩, (ofNat_lowBits_iff code).mp hlow⟩

/-- A number is written like a state if it has five digits and no sign. -/
theorem encode?_toString_iff (n : Int) :
    (∃ code, encode? (toString n) = some code) ↔ 10000 ≤ n ∧ n < 100000 := by
  simp only [encode?_eq_some_iff, exists_and_left, exists_eq', and_true]
  cases n with
  | ofNat n =>
    have hdigits : ∀ c ∈ Nat.toDigits 10 n, isStateChar c = true := fun c hc => by
      rw [isStateChar, Nat.isDigit_of_mem_toDigits (by decide) (by decide) hc, Bool.true_or]
    have hlist : (toString (Int.ofNat n)).toList = Nat.toDigits 10 n := String.toList_ofList
    have hle : (Nat.toDigits 10 n).length ≤ 5 ↔ n < 10 ^ 5 :=
      Nat.length_toDigits_le_iff (by decide) (by decide)
    have hle' : (Nat.toDigits 10 n).length ≤ 4 ↔ n < 10 ^ 4 :=
      Nat.length_toDigits_le_iff (by decide) (by decide)
    rw [hlist, Int.ofNat_eq_natCast]
    constructor
    · rintro ⟨hlength, -⟩
      omega
    · intro hrange
      exact ⟨by omega, hdigits⟩
  | negSucc n =>
    have hsign : '-' ∈ (toString (Int.negSucc n)).toList := by
      show '-' ∈ ("-" ++ Nat.repr (n + 1)).toList
      rw [String.toList_append]
      exact List.mem_cons_self
    have hnot : ¬ isStateChar '-' = true := by decide
    constructor
    · rintro ⟨-, hstate⟩
      exact absurd (hstate '-' hsign) hnot
    · intro hrange
      omega

/-- A code is shown as its own state or as the number that it is, unless it unpacks and has more than
thirty bits.  Such a code is shown as the state in its thirty lowest bits, which has another code.  Of the
codes that are shown as numbers only those with five digits look like a state. -/
theorem surfaced_iff (code : Int32) :
    (encode? (decode code) = some code ∨ decode code = toString code.toInt ↔
      InRange code ∨ ¬ Unpacks code) ∧
    ∀ other, other ≠ code ∧ encode? (decode code) = some other ↔
      (Unpacks code ∧ ¬ InRange code ∧ other = Int32.ofNat (lowBits code)) ∨
      (¬ Unpacks code ∧ (10000 ≤ code.toInt ∧ code.toInt < 100000) ∧
        encode? (toString code.toInt) = some other) := by
  by_cases hunpacks : Unpacks code
  · have hencode := encode?_decode_of_unpacks hunpacks
    have hdecimal : decode code = toString code.toInt → InRange code := by
      intro hdecode
      obtain ⟨hlow, hhigh⟩ := (encode?_toString_iff _).mp ⟨_, hdecode ▸ hencode⟩
      exact ⟨by omega, by omega⟩
    have hown : Int32.ofNat (lowBits code) = code ↔ InRange code := ofNat_lowBits_iff code
    refine ⟨?_, fun other => ?_⟩
    · simp only [hencode, Option.some.injEq, hown, hunpacks, not_true_eq_false, or_false]
      exact or_iff_left_of_imp hdecimal
    · simp only [hencode, Option.some.injEq, hunpacks, not_true_eq_false, true_and, false_and,
        or_false]
      rw [← hown]
      constructor
      · rintro ⟨hother, rfl⟩
        exact ⟨hother, rfl⟩
      · rintro ⟨hother, rfl⟩
        exact ⟨hother, rfl⟩
  · have hdecode := decode_of_not_unpacks hunpacks
    refine ⟨iff_of_true (.inr hdecode) (.inr hunpacks), fun other => ?_⟩
    simp only [hdecode, hunpacks, false_and, false_or, not_false_eq_true, true_and]
    constructor
    · rintro ⟨-, hother⟩
      exact ⟨(encode?_toString_iff _).mp ⟨other, hother⟩, hother⟩
    · rintro ⟨-, hother⟩
      refine ⟨?_, hother⟩
      rintro rfl
      exact hunpacks (unpacks_of_encode? hother).1

/-- The code with nothing but the lower one of its two highest bits is shown as the state that has the
code zero. -/
theorem not_all_surfaced :
    ¬ ∀ code, encode? (decode code) = some code ∨ decode code = toString code.toInt := by
  intro hall
  have hshown : decode 0x40000000 = "00000" := by decide +kernel
  have hcode : encode? "00000" = some 0 := by decide +kernel
  rcases hall 0x40000000 with hown | hdecimal
  · rw [hshown, hcode] at hown
    cases hown
  · rw [hshown] at hdecimal
    revert hdecimal
    decide +kernel

end SqlState
end SqlSession
