import Polyglot.Number.Double

/-!
# Shortest decimal text

A double is written with the fewest digits by which it can be told from its
neighbours, and of those texts with the one nearest to it, in positional
notation whatever its size.  A fixed number of places rounds the exact value.
-/

namespace Polyglot

namespace Double

/-- Whether a fraction rounds to a double: it lies between the points half way
to the neighbours, which belong to it when its significand is even. -/
def roundsTo (value : Double) (ratio : Ratio) : Bool :=
  let significand := value.significand
  -- Four times the significand keeps the half-way points whole.
  let unit := value.exponent - 2
  let below := if significand = Nat.pow 2 52 && 1 < value.exponentBits then 1 else 2
  let low := Ratio.scale2 (4 * significand - below) unit
  let high := Ratio.scale2 (4 * significand + 2) unit
  if significand % 2 = 0 then low.le ratio && ratio.le high
  else low.lt ratio && ratio.lt high

/-- The number of digits before the point of a fraction, less one: the power of
ten of its first digit.  Starts from a guess that is at most one too small. -/
def leadingPower (ratio : Ratio) : Int :=
  let binary : Int := (Nat.log2 ratio.numerator : Int) - (Nat.log2 ratio.denominator : Int) - 1
  let guess := binary * 30103 / 100000
  let below := [2, 1, 0].find? fun step => (Ratio.scale10 1 (guess + (step : Nat))).le ratio
  guess + ((below.getD 0 : Nat) : Int) - (if below.isNone then 1 else 0)

/-- The digits of the shortest decimal number that rounds to a double, with at
most `left` digits more than `digits`, and the power of ten of the last one. -/
def shortestFrom (value : Double) (power : Int) : (left digits : Nat) → Nat × Int
  | 0, _ => (0, 0)
  | left + 1, digits =>
    let exponent := power - digits + 1
    let scaled := value.size.div (.scale10 1 exponent)
    let low := scaled.numerator / scaled.denominator
    let fits (candidate : Nat) := value.roundsTo (.scale10 candidate exponent)
    let nearest := roundDiv scaled.numerator scaled.denominator
    if fits nearest then (nearest, exponent)
    else if fits low then (low, exponent)
    else if fits (low + 1) then (low + 1, exponent)
    else shortestFrom value power left (digits + 1)

/-- The digits of the shortest decimal number that rounds to a finite double,
and the power of ten of the last one. -/
def shortest (value : Double) : Nat × Int :=
  if value.significand = 0 then (0, 0)
  else shortestFrom value (leadingPower value.size) 17 1

/-- Digits with a point before the last `places` of them. -/
def positional (digits : List Char) (places : Nat) : List Char :=
  if places = 0 then digits
  else
    let padded := List.replicate (places + 1 - digits.length) '0' ++ digits
    padded.take (padded.length - places) ++ '.' :: padded.drop (padded.length - places)

/-- Digits without the zeros at their end, of which there are at most `limit`,
and the number of zeros that were there. -/
def dropZeros : (limit digits : Nat) → Nat × Nat
  | 0, digits => (digits, 0)
  | limit + 1, digits =>
    if digits % 10 = 0 && digits ≠ 0 then
      let (rest, zeros) := dropZeros limit (digits / 10)
      (rest, zeros + 1)
    else (digits, 0)

/-- The text of a double. -/
def toText (value : Double) : String :=
  if value.isNaN then "NaN"
  else
    let body :=
      if value.isInfinite then "inf".toList
      else
        let (digits, exponent) := value.shortest
        let (digits, zeros) := dropZeros 20 digits
        let exponent := exponent + zeros
        if 0 ≤ exponent then
          if digits = 0 then ['0']
          else Nat.toDigits 10 digits ++ List.replicate exponent.toNat '0'
        else positional (Nat.toDigits 10 digits) (-exponent).toNat
    String.ofList (if value.isNegative then '-' :: body else body)

/-- The text of a double with a fixed number of places after the point. -/
def toFixed (value : Double) (places : Nat) : String :=
  if value.isNaN then "NaN"
  else
    let body :=
      if value.isInfinite then "inf".toList
      else
        let scaled := value.size.mul (.scale10 1 places)
        let digits := Nat.toDigits 10 (roundDiv scaled.numerator scaled.denominator)
        positional digits places
    String.ofList (if value.isNegative then '-' :: body else body)

/-- The bits of a double in hexadecimal digits. -/
def toHex (value : Double) : String :=
  let digits := Nat.toDigits 16 value.bits.toNat
  String.ofList (List.replicate (16 - digits.length) '0' ++ digits)

end Double

end Polyglot
