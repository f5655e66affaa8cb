/-!
# Magnitudes of number literals

A number literal that is no integer stands for a 64-bit float, so it must not be too large for one.
The float is made in two steps: the digits that fit 64 bits make a whole number, which is then
scaled by a power of ten. Whole number, power and product are each rounded to the nearest float,
ties to the even one. A literal is finite if the product is; dividing by a power always is.
-/

namespace Saga.Json

/-- The nearest float to a whole number, of two equally near ones the even. -/
def roundToFloat (n : Nat) : Nat :=
  let excess := n.log2 - 52
  let unit := 1 <<< excess
  let (quotient, rest) := (n / unit, n % unit)
  let up := unit < 2 * rest || (unit == 2 * rest && quotient % 2 == 1)
  (if up then quotient + 1 else quotient) * unit

/-- The least number that is no float's nearest: halfway between the largest float and the next
power of two. -/
def overflowBound : Nat := 0x3fffffffffffff <<< 970

/-- The largest power of ten that is a float. -/
def maxPower : Int := 308

/-- Whether a whole number below the size of 64 bits, scaled by a power of ten, is finite. -/
def isFiniteScaled (significand : Nat) (exponent : Int) : Bool :=
  significand == 0 || exponent < 0 ||
    (exponent ≤ maxPower &&
      roundToFloat significand * roundToFloat (Nat.pow 10 exponent.toNat) < overflowBound)

/-- The digits at the front of some that go on with a number as long as it fits 64 bits, as the
number that they make and their count. -/
def takeFitting : (significand : Nat) → (digits : List Char) → Nat × Nat
  | significand, [] => (significand, 0)
  | significand, d :: rest =>
    let more := 10 * significand + (d.toNat - 48)
    if UInt64.size ≤ more then (significand, 0)
    else
      let (last, count) := takeFitting more rest
      (last, count + 1)

/-- An integer with an optional sign. -/
def signedValue : List Char → Int
  | '-' :: digits => -(Nat.ofDigitChars 10 digits 0 : Int)
  | '+' :: digits => Nat.ofDigitChars 10 digits 0
  | digits => Nat.ofDigitChars 10 digits 0

/-- Whether a number literal is not too large for a 64-bit float. Digits before the point that do
not fit count as zeros, those after it are left out. -/
def isFinite (literal : String) : Bool :=
  let isMark (c : Char) : Bool := c == 'e' || c == 'E'
  let mantissa := (literal.toList.takeWhile fun c => !isMark c).filter fun c => c != '-'
  let exponent := signedValue ((literal.toList.dropWhile fun c => !isMark c).drop 1)
  let whole := mantissa.takeWhile fun c => c != '.'
  let (significand, count) := takeFitting 0 whole
  let (significand, decimals) := takeFitting significand (mantissa.drop (whole.length + 1))
  isFiniteScaled significand (exponent + (whole.length - count) - decimals)

end Saga.Json
