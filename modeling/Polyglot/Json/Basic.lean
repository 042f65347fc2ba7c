import Polyglot.Number.Double

/-!
# JSON values

A value keeps what its text says and no more than that: the members of an object
in order and with repetitions, and the digits of a number.  What a reader makes
of repeated members or of large numbers is for the reader to decide.
-/

namespace Polyglot

/-- A number as it is written. -/
structure JsonNumber where
  /-- Whether a minus sign stands before the digits. -/
  negative : Bool
  /-- The digits before the point. -/
  whole : List Char
  /-- The digits after the point; a number without a point has none. -/
  fraction : List Char
  /-- The exponent, if one is written. -/
  exponent : Option Int
  deriving Repr, DecidableEq

/-- A JSON value. -/
inductive Json where
  | null
  | boolean (value : Bool)
  | number (value : JsonNumber)
  | string (text : String)
  /-- A string with an escape that is one half of a surrogate pair: it has no
  text. -/
  | brokenString
  | array (elements : List Json)
  /-- The members in order; a name without a text is `none`. -/
  | object (members : List (Option String × Json))
  deriving Repr

namespace JsonNumber

/-- The number that decimal digits write. -/
def ofDigits (digits : List Char) : Nat :=
  digits.foldl (fun value digit => value * 10 + (digit.toNat - '0'.toNat)) 0

/-- A natural number as it is written. -/
def ofNat (value : Nat) : JsonNumber :=
  ⟨false, (Nat.toDigits 10 value), [], none⟩

/-- The natural number that is written without sign, point and exponent. -/
def toNat? (number : JsonNumber) : Option Nat :=
  if number.negative || !number.fraction.isEmpty || number.exponent.isSome then none
  else some (ofDigits number.whole)

/-- The integer that is written without point and exponent.  A negative zero is
no integer. -/
def toInt? (number : JsonNumber) : Option Int :=
  if !number.fraction.isEmpty || number.exponent.isSome then none
  else
    let size := ofDigits number.whole
    if number.negative then if size = 0 then none else some (-(size : Int)) else some size

/-- A digit string cut to what 64 bits hold, and the number of digits cut off. -/
def significand (digits : List Char) : Nat × Nat :=
  digits.foldl
    (fun (value, dropped) digit =>
      let next := value * 10 + (digit.toNat - '0'.toNat)
      if dropped = 0 && next < UInt64.size then (next, 0) else (value, dropped + 1))
    (0, 0)

/-- Scales a number by a power of ten in steps that a double can hold, at most
`steps` of them; a number that grows beyond all doubles is none. -/
def scale? : (steps : Nat) → Double → Int → Option Double
  | 0, value, _ => some value
  | steps + 1, value, exponent =>
    if exponent.natAbs ≤ 308 then
      let power := Double.ofDecimal false 1 exponent.natAbs
      if 0 ≤ exponent then
        let product := value.mul power
        if product.isInfinite then none else some product
      else some (value.div power)
    else if value.isZero then some value
    else if 0 ≤ exponent then none
    else scale? steps (value.div (.ofDecimal false 1 308)) (exponent + 308)

/-- The double nearest to what is written, up to the rounding of its single
steps, or none when it is too large. -/
def toDouble? (number : JsonNumber) : Option Double :=
  let (value, dropped) := significand (number.whole ++ number.fraction)
  let exponent := number.exponent.getD 0 - number.fraction.length + dropped
  (scale? 4 (.ofNat value) exponent).map fun size =>
    if number.negative then size.negate else size

/-- A number as it is written after it has been held in memory: an integer that
64 bits cannot hold, or a negative zero, has become a double. -/
def held (number : JsonNumber) : JsonNumber :=
  if number.fraction.isEmpty && number.exponent.isNone then
    match number.toInt? with
    | some value =>
      if -0x8000000000000000 ≤ value ∧ value < UInt64.size then number
      else { number with fraction := ['0'] }
    | none => { number with fraction := ['0'] }
  else number

end JsonNumber

namespace Json

/-- The name and value of a member whose name has a text. -/
def member (name : String) (value : Json) : Option String × Json :=
  (some name, value)

/-- The value of the first member of an object that has that name. -/
def member? (value : Json) (name : String) : Option Json :=
  match value with
  | object members => (members.find? (·.1 = some name)).map (·.2)
  | _ => none

/-- The members of an object. -/
def members? : Json → Option (List (Option String × Json))
  | object members => some members
  | _ => none

/-- The elements of an array. -/
def elements? : Json → Option (List Json)
  | array elements => some elements
  | _ => none

/-- The text of a string. -/
def text? : Json → Option String
  | string text => some text
  | _ => none

/-- The natural number that is written. -/
def nat? : Json → Option Nat
  | number value => value.toNat?
  | _ => none

/-- The truth value. -/
def truth? : Json → Option Bool
  | boolean value => some value
  | _ => none

mutual

/-- How many containers stand inside one another, at most. -/
def depth : Json → Nat
  | array elements => depthElements elements + 1
  | object members => depthMembers members + 1
  | _ => 0

/-- The greatest depth of the elements of an array. -/
def depthElements : List Json → Nat
  | [] => 0
  | element :: rest => max element.depth (depthElements rest)

/-- The greatest depth of the members of an object. -/
def depthMembers : List (Option String × Json) → Nat
  | [] => 0
  | (_, value) :: rest => max value.depth (depthMembers rest)

end

mutual

/-- Whether every string has a text and every number is one that a double or
a 64-bit integer can hold. -/
def isSound : Json → Bool
  | number value => value.toDouble?.isSome
  | brokenString => false
  | array elements => isSoundElements elements
  | object members => isSoundMembers members
  | _ => true

/-- Whether all elements of an array are sound. -/
def isSoundElements : List Json → Bool
  | [] => true
  | element :: rest => element.isSound && isSoundElements rest

/-- Whether all members of an object are sound. -/
def isSoundMembers : List (Option String × Json) → Bool
  | [] => true
  | (name, value) :: rest => name.isSome && value.isSound && isSoundMembers rest

end

/-- Puts a member in front of the first whose name is greater. -/
def insertMember (name : Option String) (value : Json) :
    List (Option String × Json) → List (Option String × Json)
  | [] => [(name, value)]
  | (other, found) :: rest =>
    if name.getD "" < other.getD "" then (name, value) :: (other, found) :: rest
    else (other, found) :: insertMember name value rest

mutual

/-- A value as it is written after it has been held in memory: the members of an
object stand in the order of their names, and of several with one name the last
is left. -/
def held : Json → Json
  | number value => number value.held
  | array elements => array (heldElements elements)
  | object members => object (heldMembers members)
  | value => value

/-- The elements of an array as they are held. -/
def heldElements : List Json → List Json
  | [] => []
  | element :: rest => element.held :: heldElements rest

/-- The members of an object as they are held. -/
def heldMembers : List (Option String × Json) → List (Option String × Json)
  | [] => []
  | (name, value) :: rest =>
    let later := heldMembers rest
    if later.any (·.1 = name) then later else insertMember name value.held later

end

/-- The number of containers that a value held in memory may have inside one
another. -/
def depthLimit : Nat := 127

/-- Whether a value can be held in memory, and not only be passed over. -/
def isHoldable (value : Json) : Bool :=
  value.isSound && value.depth ≤ depthLimit

end Json

end Polyglot
