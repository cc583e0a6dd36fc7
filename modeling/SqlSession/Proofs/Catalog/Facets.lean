import Mathlib.Data.List.Basic
import SqlSession.Catalog.Descriptor

/-!
# Facets that were declared are shown

The engine packs the facets of a column in one number, and the SQL name of the type shows them again
(`Facets.sqlNameWith_declared`).  A column of arrays has the number of its elements, so its type shows
what the innermost type shows, with a pair of brackets for each array around it
(`TypeDescriptor.displayWith_declared`).
-/

namespace SqlSession

/-! ## What can be declared -/

namespace Facets

/-- Two halves of sixteen bits as one modifier.  The highest bit of the high half is its sign. -/
def joined (high low : UInt16) : Int32 := (high.toUInt32 <<< 16 ||| low.toUInt32).toInt32

/-- A type with the facets that a column was declared with. -/
inductive Declaration
  | numeric (precision scale : UInt16)
  | character (length : Nat)
  | varying (length : Nat)
  /-- The fields that the interval has, and its precision, which is none if all its bits are set. -/
  | interval (fields : Int16) (precision : UInt16)

namespace Declaration

def typeName : Declaration → String
  | numeric _ _ => "numeric"
  | character _ => "bpchar"
  | varying _ => "varchar"
  | interval _ _ => "interval"

/-- The number that the engine packs the facets in.  It is a modifier if it fits into 32 bits. -/
def code : Declaration → Int
  | numeric precision scale => (joined precision scale).toInt + 4
  | character length => length + 4
  | varying length => length + 4
  | interval fields precision => (joined fields.toUInt16 precision).toInt

/-- The declaration in SQL. -/
def text : Declaration → String
  | numeric precision scale => s!"numeric({precision.toNat},{scale.toNat})"
  | character length => s!"character({length})"
  | varying length => s!"character varying({length})"
  | interval _ precision =>
    if precision.toNat = 65535 then "interval" else s!"interval({precision.toNat})"

end Declaration

/-! ## Two halves in one number -/

/-- The halves of a modifier are the digits of its bits in base 65536. -/
theorem toInt_joined (high low : UInt16) :
    (joined high low).toInt % (65536 * 65536) = high.toNat * 65536 + low.toNat := by
  have hhigh := high.toNat_lt
  have hlow := low.toNat_lt
  have hbits : (high.toUInt32 <<< 16 ||| low.toUInt32).toNat = high.toNat * 65536 + low.toNat := by
    have hshift : high.toNat <<< 16 % 2 ^ 32 = high.toNat <<< 16 := by
      rw [Nat.shiftLeft_eq]
      omega
    rw [UInt32.toNat_or, UInt32.toNat_shiftLeft, UInt16.toNat_toUInt32, UInt16.toNat_toUInt32]
    show high.toNat <<< 16 % 2 ^ 32 ||| low.toNat = _
    rw [hshift, ← Nat.shiftLeft_add_eq_or_of_lt hlow, Nat.shiftLeft_eq]
  have hsigned : (joined high low).toInt =
      ((high.toUInt32 <<< 16 ||| low.toUInt32).toNat : Int).bmod (2 ^ 32) :=
    BitVec.toInt_eq_toNat_bmod _
  rw [hsigned, hbits, Int.bmod_def]
  omega

/-- The halves come apart again. -/
theorem halves_joined (high low : UInt16) :
    highHalf (joined high low).toInt = high.toNat ∧ lowHalf (joined high low).toInt = low.toNat := by
  have hjoined := toInt_joined high low
  have hhigh := high.toNat_lt
  have hlow := low.toNat_lt
  unfold highHalf lowHalf
  omega

theorem toInt_undeclared : undeclared.toInt = -1 := rfl

/-- The number of no facets is the code of two kinds of declarations.  An interval is shown without facets
for it, and the numeric type with its two halves is the exception. -/
theorem text_of_undeclared {d : Declaration} (h : undeclared.toInt = d.code)
    (hd : d ≠ .numeric 65535 65531) : d.text = sqlName d.typeName := by
  rw [toInt_undeclared] at h
  cases d with
  | numeric precision scale =>
    -- The header lies between the code and the halves, so they are those of minus five.
    have hjoined := toInt_joined precision scale
    have hprecision := precision.toNat_lt
    have hscale := scale.toNat_lt
    rw [Declaration.code] at h
    have hhigh : precision.toNat = 65535 := by omega
    have hlow : scale.toNat = 65531 := by omega
    obtain rfl : precision = 65535 := UInt16.toNat_inj.mp hhigh
    obtain rfl : scale = 65531 := UInt16.toNat_inj.mp hlow
    exact absurd rfl hd
  | character length =>
    rw [Declaration.code] at h
    omega
  | varying length =>
    rw [Declaration.code] at h
    omega
  | interval fields precision =>
    have hjoined := toInt_joined fields.toUInt16 precision
    have hfields := fields.toUInt16.toNat_lt
    have hprecision := precision.toNat_lt
    rw [Declaration.code] at h
    have hnone : precision.toNat = 65535 := by omega
    exact if_pos hnone

/-! ## What is shown -/

theorem sqlNameWith_undeclared (internal : String) :
    sqlNameWith internal undeclared = sqlName internal := by
  unfold sqlNameWith
  exact if_pos rfl

theorem sub_lengthWord {m : Int32} {n : Int} (h : m.toInt = n + 4) : m.toInt - lengthWord = n := by
  rw [h, lengthWord]
  omega

section Shown

variable {m : Int32} (hmark : m ≠ undeclared)
include hmark

theorem sqlNameWith_numeric {precision scale : UInt16}
    (hm : m.toInt = (Declaration.numeric precision scale).code) :
    sqlNameWith "numeric" m = (Declaration.numeric precision scale).text := by
  have hshown : sqlNameWith "numeric" m =
      s!"numeric({highHalf (m.toInt - lengthWord)},{lowHalf (m.toInt - lengthWord)})" :=
    if_neg hmark
  obtain ⟨hhigh, hlow⟩ := halves_joined precision scale
  rw [hshown, sub_lengthWord hm, hhigh, hlow]
  rfl

theorem sqlNameWith_character {length : Nat} (hm : m.toInt = (Declaration.character length).code) :
    sqlNameWith "bpchar" m = (Declaration.character length).text := by
  have hshown : sqlNameWith "bpchar" m = s!"character({m.toInt - lengthWord})" := if_neg hmark
  rw [hshown, sub_lengthWord hm]
  rfl

theorem sqlNameWith_varying {length : Nat} (hm : m.toInt = (Declaration.varying length).code) :
    sqlNameWith "varchar" m = (Declaration.varying length).text := by
  have hshown : sqlNameWith "varchar" m = s!"character varying({m.toInt - lengthWord})" :=
    if_neg hmark
  rw [hshown, sub_lengthWord hm]
  rfl

theorem sqlNameWith_interval {fields : Int16} {precision : UInt16}
    (hm : m.toInt = (Declaration.interval fields precision).code) :
    sqlNameWith "interval" m = (Declaration.interval fields precision).text := by
  have hshown : sqlNameWith "interval" m =
      if lowHalf m.toInt = noPrecision then "interval" else s!"interval({lowHalf m.toInt})" :=
    if_neg hmark
  have hlow := (halves_joined fields.toUInt16 precision).2
  have htext : (Declaration.interval fields precision).text =
      if precision.toNat = 65535 then "interval" else s!"interval({precision.toNat})" := rfl
  rw [hshown, htext, hm, Declaration.code, hlow]
  by_cases hnone : precision.toNat = 65535
  · rw [if_pos (by rw [hnone]; rfl), if_pos hnone]
  · rw [if_neg (by rw [noPrecision]; omega), if_neg hnone]
    rfl

end Shown

/-- A type shows the facets that its modifier has been packed from. -/
theorem sqlNameWith_declared {d : Declaration} {m : Int32} (hm : m.toInt = d.code)
    (hd : d ≠ .numeric 65535 65531) : sqlNameWith d.typeName m = d.text := by
  by_cases hmark : m = undeclared
  · subst hmark
    rw [text_of_undeclared hm hd, sqlNameWith_undeclared]
  · cases d with
    | numeric precision scale => exact sqlNameWith_numeric hmark hm
    | character length => exact sqlNameWith_character hmark hm
    | varying length => exact sqlNameWith_varying hmark hm
    | interval fields precision => exact sqlNameWith_interval hmark hm

end Facets

/-! ## Types around types -/

namespace TypeDescriptor

/-- The type of arrays of a type, of arrays of these, and so on, with their identities in this order. -/
def arrays (t : TypeDescriptor) (layers : List TypeIdentity) : TypeDescriptor :=
  layers.foldl (fun element identity => .array identity element) t

def brackets (depth : Nat) : String := String.join (List.replicate depth "[]")

/-- The name of a type behind its schema, which is left out if it is the one of the built-in types. -/
def within (schema name : String) : String :=
  if schema = "pg_catalog" then name else schema ++ "." ++ name

theorem displayWith_arrays (t : TypeDescriptor) (layers : List TypeIdentity) (m : Int32) :
    (t.arrays layers).displayWith m = t.displayWith m ++ brackets layers.length := by
  induction layers generalizing t with
  | nil => exact (String.append_empty).symm
  | cons identity layers ih =>
    have hbrackets : brackets (layers.length + 1) = "[]" ++ brackets layers.length := by
      rw [brackets, List.replicate_succ, String.join_cons]
      rfl
    calc (arrays (.array identity t) layers).displayWith m
        = t.displayWith m ++ "[]" ++ brackets layers.length := ih (.array identity t)
      _ = t.displayWith m ++ brackets (layers.length + 1) := by
          rw [hbrackets, String.append_assoc]

/-- A type shows what the innermost type shows, behind its schema and with its facets, and a pair of
brackets for each array.  Nothing else of the arrays is shown.  The facets are those that the modifier has
been packed from, and there are none if it says so.  One declaration is left out, because its two halves
set all the bits that say so. -/
theorem displayWith_declared (identity : TypeIdentity) (layers : List TypeIdentity) :
    (∀ m, (arrays (.base identity) layers).displayWith m =
      within identity.schema (Facets.sqlNameWith identity.name m) ++ brackets layers.length) ∧
    (arrays (.base identity) layers).displayWith (-1) =
      within identity.schema (Facets.sqlName identity.name) ++ brackets layers.length ∧
    ∀ (d : Facets.Declaration) (m : Int32), identity.name = d.typeName → m.toInt = d.code →
      d ≠ .numeric 65535 65531 →
      (arrays (.base identity) layers).displayWith m =
        within identity.schema d.text ++ brackets layers.length := by
  have hall : ∀ m, (arrays (.base identity) layers).displayWith m =
      within identity.schema (Facets.sqlNameWith identity.name m) ++ brackets layers.length :=
    displayWith_arrays (.base identity) layers
  refine ⟨hall, ?_, ?_⟩
  · rw [hall]
    exact congrArg (within identity.schema · ++ brackets layers.length)
      (Facets.sqlNameWith_undeclared identity.name)
  · intro d m hname hm hd
    rw [hall, hname, Facets.sqlNameWith_declared hm hd]

/-- Arrays of arrays in schemas of their own show the facets of the numeric type. -/
theorem displayWith_declared_nested :
    (655366 : Int32).toInt = (Facets.Declaration.numeric 10 2).code ∧
    (arrays (.base ⟨"pg_catalog", "numeric", Oid.numeric⟩)
      [⟨"pg_catalog", "_numeric", 1231⟩, ⟨"app", "__numeric", 90001⟩]).displayWith 655366 =
      "numeric(10,2)[][]" := by
  have hcode : (655366 : Int32).toInt = (Facets.Declaration.numeric 10 2).code := by decide
  have hother : Facets.Declaration.numeric 10 2 ≠ .numeric 65535 65531 := by
    intro h
    cases h
  obtain ⟨-, -, hdeclared⟩ := displayWith_declared ⟨"pg_catalog", "numeric", Oid.numeric⟩
    [⟨"pg_catalog", "_numeric", 1231⟩, ⟨"app", "__numeric", 90001⟩]
  exact ⟨hcode, hdeclared (.numeric 10 2) 655366 rfl hcode hother⟩

end TypeDescriptor
end SqlSession
