import SqlSession.Number.Shortest

/-!
# Two layouts of a decimal

Messages write a float without an exponent, however long that is.  JSON text writes one with an
exponent if its decimal point is far away, and shows that it is no integer.
-/

namespace SqlSession
namespace Decimal

/-- The digits of the coefficient. -/
def digits (d : Decimal) : List Char := Nat.toDigits 10 d.coefficient

/-- The power of ten just above the decimal, which is where its point stands among its digits. -/
def pointAt (d : Decimal) : Int := d.digits.length + d.exponent

/-- All digits written out, zeros being added where the point lies outside the digits.  An integer
has no point. -/
def positional (d : Decimal) : List Char :=
  match d.exponent with
  | .ofNat zeros => d.digits ++ List.replicate zeros '0'
  | .negSucc _ =>
    match d.pointAt with
    | .ofNat 0 => '0' :: '.' :: d.digits
    | .ofNat whole => d.digits.take whole ++ '.' :: d.digits.drop whole
    | .negSucc zeros => '0' :: '.' :: (List.replicate (zeros + 1) '0' ++ d.digits)

/-- An exponent, which always has a sign and never a zero in front. -/
def signedExponent : Int → List Char
  | .ofNat n => '+' :: Nat.toDigits 10 n
  | .negSucc n => '-' :: Nat.toDigits 10 (n + 1)

/-- One digit, the point and the others if there are any, and the exponent. -/
def scientific (d : Decimal) : List Char :=
  let fraction := match d.digits.drop 1 with
    | [] => []
    | rest => '.' :: rest
  d.digits.take 1 ++ fraction ++ 'e' :: signedExponent (d.pointAt - 1)

end Decimal

namespace Binary64

/-- A float in a message: all digits, no exponent, no point in an integer. -/
def plainText (x : Binary64) : String :=
  if x.isNaN then "NaN"
  else
    let sign := if x.isNegative then ['-'] else []
    let body := if x.isFinite then x.toDecimal.positional else ['i', 'n', 'f']
    String.ofList (sign ++ body)

/-- A finite float in JSON text.  Its point lies at most sixteen digits to the right of the first
digit and at most four zeros to the left of it, or else there is an exponent.  An integer gets the
fraction zero. -/
def jsonText (x : Binary64) : List Char :=
  let sign := if x.isNegative then ['-'] else []
  let d := x.toDecimal
  let body :=
    if -5 < d.pointAt ∧ d.pointAt ≤ 16 then
      if 0 ≤ d.exponent then d.positional ++ ['.', '0'] else d.positional
    else d.scientific
  sign ++ body

end Binary64
end SqlSession
