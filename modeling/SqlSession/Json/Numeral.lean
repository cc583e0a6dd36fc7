import SqlSession.Json.Basic

/-!
# Numbers in JSON text

A number without fraction and exponent is an integer as long as 64 bits hold it.  Every other one
is a float, computed from at most 64 bits of digits and a power of ten: the digits are rounded to a
float first, which is then multiplied or divided once.  The last bit can therefore differ from the
nearest float.
-/

namespace SqlSession
namespace Json

/-- The digits of a number as far as 64 bits hold them, and the power of ten they are short of. -/
structure Significand where
  value : Nat
  exponent : Int

namespace Significand

/-- What a further digit makes of the value, if 64 bits still hold that. -/
def extend? (value : Nat) (c : Char) : Option Nat :=
  let next := value * 10 + (c.toNat - '0'.toNat)
  if next < UInt64.size then some next else none

/-- The digits before the point.  From the first one that does not fit, all are counted only. -/
def whole : Nat → List Char → Significand
  | value, [] => ⟨value, 0⟩
  | value, c :: rest =>
    match extend? value c with
    | some next => whole next rest
    | none => ⟨value, (rest.length + 1 : Nat)⟩

/-- The digits after the point.  From the first one that does not fit, all are left out. -/
def fraction (s : Significand) : List Char → Significand
  | [] => s
  | c :: rest =>
    match extend? s.value c with
    | some next => fraction ⟨next, s.exponent - 1⟩ rest
    | none => s

/-- The power of ten as a float, for exponents up to 308. -/
def power (k : Nat) : Float := Float.ofScientific 1 false k

/-- Division by `10 ^ k`, in steps of 308 as far as `k` is larger. -/
def scaleDown (f : Float) (k : Nat) : Float :=
  if k ≤ 308 then f / power k
  else if f == 0 then f
  else scaleDown (f / power 308) (k - 308)
termination_by k

/-- The float `value * 10 ^ exponent`, unless it is too large. -/
def toFloat? (s : Significand) : Option Float :=
  let f := (UInt64.ofNat s.value).toFloat
  match s.exponent with
  | .ofNat k =>
    if k ≤ 308 then
      let scaled := f * power k
      if scaled.isInf then none else some scaled
    else if f == 0 then some f else none
  | .negSucc k => some (scaleDown f (k + 1))

end Significand

/-- An exponent that does not fit 32 bits is out of every range. -/
def exponentLimit : Nat := 0x80000000

structure Numeral where
  negative : Bool
  whole : List Char
  fraction : Option (List Char)
  /-- Whether the exponent is negative, and its digits. -/
  exponent : Option (Bool × List Char)

namespace Numeral

/-- The digits at the start of a text, if there are any, and what follows them. -/
def digits? (cs : List Char) : Option (List Char × List Char) :=
  match cs.takeWhile Char.isDigit with
  | [] => none
  | ds => some (ds, cs.dropWhile Char.isDigit)

/-- The number at the start of a text, and what follows it.  Its first digit is zero only if it is
the only one before the point. -/
def scan? (cs : List Char) : Option (Numeral × List Char) := do
  let (negative, cs) := match cs with
    | '-' :: rest => (true, rest)
    | cs => (false, cs)
  let (whole, cs) ← digits? cs
  if whole.head? == some '0' && whole.length != 1 then none else
  let (fraction, cs) ← match cs with
    | '.' :: rest => (fun (ds, rest) => (some ds, rest)) <$> digits? rest
    | cs => some (none, cs)
  let exponent (below : Bool) (rest : List Char) :=
    (fun (ds, rest) => (⟨negative, whole, fraction, some (below, ds)⟩, rest)) <$> digits? rest
  match cs with
  | 'e' :: '+' :: rest | 'E' :: '+' :: rest => exponent false rest
  | 'e' :: '-' :: rest | 'E' :: '-' :: rest => exponent true rest
  | 'e' :: rest | 'E' :: rest => exponent false rest
  | cs => some (⟨negative, whole, fraction, none⟩, cs)

/-- The exponent that the digits stand for, and nothing from the limit on. -/
def exponentValue? (ds : List Char) : Option Nat :=
  let n := ds.foldl (fun n c => n * 10 + (c.toNat - '0'.toNat)) 0
  if n < exponentLimit then some n else none

def signed (n : Numeral) (f : Float) : Json :=
  .float (Binary64.ofFloat (if n.negative then -f else f))

/-- The float of a number with a fraction, an exponent or too many digits for an integer. -/
def toFloat? (n : Numeral) (s : Significand) : Option Json :=
  match n.exponent with
  | none => n.signed <$> s.toFloat?
  | some (below, ds) =>
    match exponentValue? ds with
    | some e =>
      let e : Int := if below then -(e : Int) else e
      n.signed <$> (Significand.mk s.value (s.exponent + e)).toFloat?
    | none => if s.value != 0 && !below then none else some (n.signed 0)

/-- The value of a number, unless it is too large for a float.  A negative zero is a float, because
no integer has a sign of its own. -/
def value? (n : Numeral) : Option Json :=
  let s := Significand.whole 0 n.whole
  match n.fraction, n.exponent with
  | none, none =>
    if s.exponent != 0 then n.toFloat? s
    else if !n.negative then some (.integer s.value)
    else if s.value = 0 ∨ 0x8000000000000000 < s.value then n.toFloat? s
    else some (.integer (-(s.value : Int)))
  | fraction, _ => n.toFloat? (s.fraction (fraction.getD []))

end Numeral
end Json
end SqlSession
