/-!
# Packed states

The engine packs the five characters of an SQLSTATE into a number of 32 bits, six bits for each
character, the first character lowest.  A character is stored as its distance from the digit zero.
-/

namespace SqlSession
namespace SqlState

/-- The characters of a state: the digits and the capitals of ASCII. -/
def isStateChar (c : Char) : Bool :=
  c.isDigit || c.isUpper

/-- The six bits at position `i` of a code. -/
def sixBits (code : Int32) (i : Nat) : Nat :=
  (code.toInt >>> (6 * i) % 64).toNat

/-- The character at position `i` of the packed state, if its six bits stand for one. -/
def charAt? (code : Int32) (i : Nat) : Option Char :=
  let c := Char.ofNat ('0'.toNat + sixBits code i)
  if isStateChar c then some c else none

/-- The state in a code.  A code in which some six bits stand for no character is shown as the
number that it is.  The two highest bits of a code belong to no character and are not looked at. -/
def decode (code : Int32) : String :=
  match (List.range 5).mapM (charAt? code) with
  | some cs => String.ofList cs
  | none => toString code.toInt

/-- The number that holds some characters, the first one lowest. -/
def pack : List Char → Nat
  | [] => 0
  | c :: rest => (c.toNat - '0'.toNat) + 64 * pack rest

/-- The code of a state.  Anything but five digits and capitals has none. -/
def encode? (state : String) : Option Int32 :=
  let cs := state.toList
  if cs.length = 5 ∧ cs.all isStateChar then some (Int32.ofNat (pack cs)) else none

/-- The state of a syntax error. -/
def syntaxError : String := "42601"

end SqlState
end SqlSession
