/-!
# Lengths of time as text

A length of time is written in the largest unit of which it has at least one,
with as many decimal places as it needs and no zeros at the end.
-/

namespace Polyglot

/-- A length of time in whole seconds and nanoseconds. -/
structure Duration where
  seconds : Nat
  nanoseconds : Nat
  deriving Repr, DecidableEq

namespace Duration

/-- A length of time in milliseconds. -/
def ofMilliseconds (milliseconds : Nat) : Duration :=
  ⟨milliseconds / 1000, milliseconds % 1000 * 1000000⟩

/-- Whether a length of time is at most another. -/
def le (left right : Duration) : Bool :=
  left.seconds < right.seconds
    || (left.seconds = right.seconds && left.nanoseconds ≤ right.nanoseconds)

/-- The `places` decimal digits of a number, with zeros in front. -/
def paddedDigits (places value : Nat) : List Char :=
  let digits := Nat.toDigits 10 value
  List.replicate (places - digits.length) '0' ++ digits

/-- A number with `places` decimal places, of which the zeros at the end are
left out, and its unit. -/
def decimalText (whole places fraction : Nat) (unit : String) : String :=
  let digits := ((paddedDigits places fraction).reverse.dropWhile (· = '0')).reverse
  let point := if fraction = 0 then "" else "." ++ String.ofList digits
  toString whole ++ point ++ unit

/-- The text of a length of time. -/
def toText (duration : Duration) : String :=
  if 0 < duration.seconds then decimalText duration.seconds 9 duration.nanoseconds "s"
  else if 1000000 ≤ duration.nanoseconds then
    decimalText (duration.nanoseconds / 1000000) 6 (duration.nanoseconds % 1000000) "ms"
  else if 1000 ≤ duration.nanoseconds then
    decimalText (duration.nanoseconds / 1000) 3 (duration.nanoseconds % 1000) "µs"
  else decimalText duration.nanoseconds 0 0 "ns"

end Duration

end Polyglot
