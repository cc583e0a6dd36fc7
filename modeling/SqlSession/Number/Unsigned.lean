/-!
# Unsigned numbers of 32 bits

Object identifiers and the parts of a version are written in decimal.  Reading goes from left to
right and stops at the first thing that is wrong, so of two faults the earlier one is reported.
-/

namespace SqlSession

/-- Why a text or a wider integer is not an unsigned number of 32 bits. -/
inductive NumberFault
  | empty
  | invalidDigit
  | tooLarge
  | tooSmall
deriving DecidableEq, Repr

namespace NumberFault

def text : NumberFault → String
  | empty => "cannot parse integer from empty string"
  | invalidDigit => "invalid digit found in string"
  | tooLarge => "number too large to fit in target type"
  | tooSmall => "number too small to fit in target type"

end NumberFault

namespace Unsigned

/-- Continues the number `acc` with further digits. -/
def extend : Nat → List Char → Except NumberFault Nat
  | acc, [] => .ok acc
  | acc, c :: rest =>
    if c.isDigit then
      let next := acc * 10 + (c.toNat - '0'.toNat)
      if next < UInt32.size then extend next rest else .error .tooLarge
    else .error .invalidDigit

/-- Reads a number with an optional plus sign.  Only ASCII digits count, and a sign alone has no
digits that could be valid. -/
def read (s : String) : Except NumberFault UInt32 :=
  match s.toList with
  | [] => .error .empty
  | ['+'] => .error .invalidDigit
  | '+' :: digits => UInt32.ofNat <$> extend 0 digits
  | digits => UInt32.ofNat <$> extend 0 digits

/-- The same number with 32 bits, if it has one. -/
def narrow (v : Int64) : Except NumberFault UInt32 :=
  if v.toInt < 0 then .error .tooSmall
  else if v.toInt < UInt32.size then .ok (UInt32.ofNat v.toInt.toNat)
  else .error .tooLarge

end Unsigned
end SqlSession
