import SqlSession.Number.Binary

/-!
# The shortest decimal that reads back

A float stands for all real numbers that round to it.  Its decimal text is the shortest decimal
among them, and the nearest to the float of the shortest ones.  Everything is computed with exact
integers.
-/

namespace SqlSession

/-- The decimal `coefficient * 10 ^ exponent`. -/
structure Decimal where
  coefficient : Nat
  exponent : Int
deriving DecidableEq

namespace Decimal

def power (k : Nat) : Nat := Nat.pow 10 k

/-- The same decimal without zeros at the end of its coefficient. -/
def normalize (d : Decimal) : Decimal :=
  if h : d.coefficient ≠ 0 ∧ d.coefficient % 10 = 0 then
    normalize ⟨d.coefficient / 10, d.exponent + 1⟩
  else d
termination_by d.coefficient
decreasing_by exact Nat.div_lt_self (Nat.pos_of_ne_zero h.1) (by decide)

/-- How many decimal digits `n` has, none for zero. -/
def digitCount (n : Nat) : Nat :=
  if n = 0 then 0 else digitCount (n / 10) + 1

end Decimal

/-- A positive fraction together with the bounds of the interval of all numbers that stand for the
same float.  All three numerators share one denominator. -/
structure Rounding where
  lower : Nat
  value : Nat
  upper : Nat
  denominator : Nat
  /-- Whether the bounds themselves still round to the float. -/
  closed : Bool

namespace Rounding

/-- The interval of a finite float other than zero.  Its bounds lie half way to the neighbours, and
a number half way between two floats rounds to the one with the even significand. -/
def ofBinary64 (x : Binary64) : Rounding :=
  let m := 4 * x.significand
  let below := if x.belowIsCloser then 1 else 2
  let closed := x.significand % 2 == 0
  let shift := x.exponent - 2
  match shift with
  | .ofNat up => ⟨(m - below) <<< up, m <<< up, (m + 2) <<< up, 1, closed⟩
  | .negSucc down => ⟨m - below, m, m + 2, 1 <<< (down + 1), closed⟩

/-- The number `n * 10 ^ k` as a numerator, and what the numerators of `r` have to be multiplied
with to be compared with it. -/
def grid (r : Rounding) (n : Nat) (k : Int) : Nat × Nat :=
  match k with
  | .ofNat up => (n * Decimal.power up * r.denominator, 1)
  | .negSucc down => (n * r.denominator, Decimal.power (down + 1))

/-- Whether `n * 10 ^ k` rounds to the float. -/
def admits (r : Rounding) (n : Nat) (k : Int) : Bool :=
  let (point, scale) := r.grid n k
  if r.closed then decide (r.lower * scale ≤ point) && decide (point ≤ r.upper * scale)
  else decide (r.lower * scale < point) && decide (point < r.upper * scale)

/-- The largest `n` with `n * 10 ^ k` not above the value. -/
def floorOn (r : Rounding) (k : Int) : Nat :=
  match k with
  | .ofNat up => r.value / (Decimal.power up * r.denominator)
  | .negSucc down => r.value * Decimal.power (down + 1) / r.denominator

/-- The `e` for which the value is at least `10 ^ (e - 1)` and less than `10 ^ e`. -/
def decimalExponent (r : Rounding) : Int :=
  if r.denominator ≤ r.value then Decimal.digitCount (r.value / r.denominator)
  else 1 - (Decimal.digitCount ((r.denominator - 1) / r.value) : Int)

/-- Of the two neighbours of the value among the multiples of `10 ^ k` the one that rounds to the
float, the nearer one if both do, the even one if they are equally near. -/
def nearestOn? (r : Rounding) (k : Int) : Option Decimal :=
  let n := r.floorOn k
  match r.admits n k, r.admits (n + 1) k with
  | false, false => none
  | true, false => some ⟨n, k⟩
  | false, true => some ⟨n + 1, k⟩
  | true, true =>
    let (lowPoint, scale) := r.grid n k
    let (highPoint, _) := r.grid (n + 1) k
    let twice := 2 * r.value * scale
    if twice < lowPoint + highPoint then some ⟨n, k⟩
    else if lowPoint + highPoint < twice then some ⟨n + 1, k⟩
    else if n % 2 = 0 then some ⟨n, k⟩ else some ⟨n + 1, k⟩

/-- The first hit on the grids with one digit, two digits and so on.  Seventeen digits are enough
for every float of 64 bits. -/
def shortest (r : Rounding) : Decimal :=
  let e := r.decimalExponent
  match (List.range 17).findSome? fun d => r.nearestOn? (e - (d + 1 : Nat)) with
  | some d => d.normalize
  | none => Decimal.normalize ⟨r.floorOn (e - 17), e - 17⟩

end Rounding

namespace Binary64

/-- The shortest decimal that reads back as the absolute value of a finite float. -/
def toDecimal (x : Binary64) : Decimal :=
  if x.magnitude = 0 then ⟨0, 0⟩ else (Rounding.ofBinary64 x).shortest

end Binary64
end SqlSession
