/-!
# Doubles

The numbers of IEEE 754 with 64 bits, as their bits.  Every finite one is a
fraction of natural numbers with a sign; to round a fraction is to take the
nearest double, and of two nearest ones the one with an even significand.
-/

namespace Polyglot

/-- The quotient of two natural numbers as the nearest integer; a tie goes to
the even neighbour. -/
def roundDiv (numerator denominator : Nat) : Nat :=
  let quotient := numerator / denominator
  let twice := 2 * (numerator % denominator)
  if denominator < twice then quotient + 1
  else if twice = denominator && quotient % 2 = 1 then quotient + 1
  else quotient

/-- A fraction of natural numbers. -/
structure Ratio where
  numerator : Nat
  denominator : Nat
  deriving Repr, DecidableEq

namespace Ratio

/-- The size of a number times a power of two. -/
def scale2 (size : Nat) (exponent : Int) : Ratio :=
  if 0 ≤ exponent then ⟨size * Nat.pow 2 exponent.toNat, 1⟩
  else ⟨size, Nat.pow 2 (-exponent).toNat⟩

/-- The size of a number times a power of ten. -/
def scale10 (size : Nat) (exponent : Int) : Ratio :=
  if 0 ≤ exponent then ⟨size * Nat.pow 10 exponent.toNat, 1⟩
  else ⟨size, Nat.pow 10 (-exponent).toNat⟩

/-- The product of two fractions. -/
def mul (left right : Ratio) : Ratio :=
  ⟨left.numerator * right.numerator, left.denominator * right.denominator⟩

/-- The quotient of two fractions. -/
def div (left right : Ratio) : Ratio :=
  ⟨left.numerator * right.denominator, left.denominator * right.numerator⟩

/-- The sum of two fractions. -/
def add (left right : Ratio) : Ratio :=
  ⟨left.numerator * right.denominator + right.numerator * left.denominator,
    left.denominator * right.denominator⟩

/-- Whether one fraction is at most another. -/
def le (left right : Ratio) : Bool :=
  left.numerator * right.denominator ≤ right.numerator * left.denominator

/-- Whether one fraction is less than another. -/
def lt (left right : Ratio) : Bool :=
  left.numerator * right.denominator < right.numerator * left.denominator

end Ratio

/-- A double as its 64 bits. -/
structure Double where
  bits : UInt64
  deriving Repr, DecidableEq

namespace Double

/-- The bits of the significand. -/
def fractionBits (value : Double) : Nat := value.bits.toNat % Nat.pow 2 52

/-- The bits of the exponent. -/
def exponentBits (value : Double) : Nat := value.bits.toNat / Nat.pow 2 52 % Nat.pow 2 11

/-- Whether the sign bit is set. -/
def isNegative (value : Double) : Bool := Nat.pow 2 63 ≤ value.bits.toNat

/-- Whether it is no number. -/
def isNaN (value : Double) : Bool := value.exponentBits = 2047 && value.fractionBits ≠ 0

/-- Whether it is infinite. -/
def isInfinite (value : Double) : Bool := value.exponentBits = 2047 && value.fractionBits = 0

/-- Whether it is neither infinite nor no number. -/
def isFinite (value : Double) : Bool := value.exponentBits ≠ 2047

/-- The significand of a finite double as an integer. -/
def significand (value : Double) : Nat :=
  if value.exponentBits = 0 then value.fractionBits else value.fractionBits + Nat.pow 2 52

/-- The power of two that the significand is multiplied with. -/
def exponent (value : Double) : Int :=
  (max value.exponentBits 1 : Nat) - 1075

/-- The size of a finite double. -/
def size (value : Double) : Ratio := .scale2 value.significand value.exponent

/-- Whether it is one of the two zeros. -/
def isZero (value : Double) : Bool := value.isFinite && value.significand = 0

/-- The double with a sign and with bits for the rest. -/
def ofParts (negative : Bool) (rest : Nat) : Double :=
  ⟨UInt64.ofNat ((if negative then Nat.pow 2 63 else 0) + rest)⟩

/-- Infinity with a sign. -/
def infinity (negative : Bool) : Double := ofParts negative (2047 * Nat.pow 2 52)

/-- No number, with a sign. -/
def nan (negative : Bool) : Double := ofParts negative (2047 * Nat.pow 2 52 + Nat.pow 2 51)

/-- The double nearest to a fraction with a sign; beyond the greatest double lies
infinity.  A significand that rounding carries to the next power of two is
written with the next exponent, which its bits give by themselves. -/
def ofRatio (negative : Bool) (ratio : Ratio) : Double :=
  if ratio.numerator = 0 then ofParts negative 0
  else
    let guess : Int :=
      (Nat.log2 ratio.numerator : Int) - (Nat.log2 ratio.denominator : Int) - 52
    -- The quotient by two to the `guess` lies between 2^51 and 2^53.
    let tooLarge := (ratio.div (.scale2 1 guess)).lt ⟨Nat.pow 2 52, 1⟩
    let power : Int := max (if tooLarge then guess - 1 else guess) (-1074)
    let scaled := ratio.div (.scale2 1 power)
    let significand := roundDiv scaled.numerator scaled.denominator
    let rest := (power + 1074).toNat * Nat.pow 2 52 + significand
    if 2047 * Nat.pow 2 52 ≤ rest then infinity negative else ofParts negative rest

/-- The double nearest to a decimal number. -/
def ofDecimal (negative : Bool) (digits : Nat) (exponent : Int) : Double :=
  if digits = 0 then ofParts negative 0
  -- Beyond these exponents every number with these digits is infinite or zero.
  else if 400 < exponent then infinity negative
  else if exponent + (Nat.log2 digits + 1 : Nat) < -400 then ofParts negative 0
  else ofRatio negative (.scale10 digits exponent)

/-- The double nearest to an integer. -/
def ofInt (value : Int) : Double := ofRatio (value < 0) ⟨value.natAbs, 1⟩

/-- The double nearest to a natural number. -/
def ofNat (value : Nat) : Double := ofRatio false ⟨value, 1⟩

/-- The double nearest to the product of two finite doubles that are not
negative. -/
def mul (left right : Double) : Double := ofRatio false (left.size.mul right.size)

/-- The double nearest to the sum of two finite doubles that are not negative. -/
def add (left right : Double) : Double := ofRatio false (left.size.add right.size)

/-- The double nearest to the quotient of two finite doubles that are not
negative. -/
def div (left right : Double) : Double := ofRatio false (left.size.div right.size)

/-- The double of the other sign. -/
def negate (value : Double) : Double :=
  ofParts (!value.isNegative) (value.bits.toNat % Nat.pow 2 63)

end Double

end Polyglot
