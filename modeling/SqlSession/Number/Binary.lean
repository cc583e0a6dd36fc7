/-!
# Binary floating point

A float is its bits, so that two values are the same value exactly when their bits are.  The
comparison of the number line is a different relation, `Binary64.equal`.
-/

namespace SqlSession

/-- A float of 64 bits: a sign, eleven bits of exponent and 52 bits of fraction. -/
structure Binary64 where
  bits : UInt64
deriving DecidableEq

/-- A float of 32 bits: a sign, eight bits of exponent and 23 bits of fraction. -/
structure Binary32 where
  bits : UInt32
deriving DecidableEq

namespace Binary64

def ofFloat (x : Float) : Binary64 := ⟨x.toBits⟩

def toFloat (x : Binary64) : Float := Float.ofBits x.bits

def signBit : Nat := 0x8000000000000000

def isNegative (x : Binary64) : Bool := decide (signBit ≤ x.bits.toNat)

/-- The bits without the sign.  They grow with the absolute value. -/
def magnitude (x : Binary64) : Nat := x.bits.toNat % signBit

/-- The magnitude of the infinities.  Beyond it lie the values that are no numbers. -/
def infinity : Nat := 0x7FF0000000000000

def isNaN (x : Binary64) : Bool := decide (infinity < x.magnitude)

def isFinite (x : Binary64) : Bool := decide (x.magnitude < infinity)

/-- Equality on the number line: the two zeros are equal, and what is no number equals nothing. -/
def equal (a b : Binary64) : Bool :=
  !a.isNaN && !b.isNaN && (a == b || (a.magnitude == 0 && b.magnitude == 0))

/-- The bit in front of the 52 bits of fraction, which is set in all but the smallest values and
not stored. -/
def leadingBit : Nat := 0x10000000000000

/-- A finite value is `significand * 2 ^ exponent`, up to its sign. -/
def significand (x : Binary64) : Nat :=
  if x.magnitude < leadingBit then x.magnitude else leadingBit + x.magnitude % leadingBit

def exponent (x : Binary64) : Int :=
  if x.magnitude < leadingBit then -1074 else (x.magnitude / leadingBit : Nat) - 1075

/-- Whether the next smaller value lies at half the distance of the next larger one. -/
def belowIsCloser (x : Binary64) : Bool :=
  x.magnitude % leadingBit == 0 && decide (2 * leadingBit ≤ x.magnitude)

/-- Integers of at most this absolute value are all floats themselves. -/
def exactIntegers : Nat := 2 * leadingBit

/-- The float that is the integer `v`, if its absolute value is at most `exactIntegers`. -/
def ofInt64? (v : Int64) : Option Binary64 :=
  if v.toInt.natAbs ≤ exactIntegers then some (ofFloat v.toFloat) else none

/-- The magnitude of the largest finite float of 32 bits. -/
def largest32 : Nat := 0x47EFFFFFE0000000

/-- The nearest float of 32 bits, a tie going to the even one.  A finite value beyond the largest
float of 32 bits has none. -/
def narrow? (x : Binary64) : Option Binary32 :=
  if x.isFinite && decide (largest32 < x.magnitude) then none
  else some ⟨x.toFloat.toFloat32.toBits⟩

end Binary64

namespace Binary32

def isNaN (x : Binary32) : Bool := decide (0x7F800000 < x.bits.toNat % 0x80000000)

end Binary32
end SqlSession
