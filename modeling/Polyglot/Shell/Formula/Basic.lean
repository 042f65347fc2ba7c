import Polyglot.Shell.Octets

/-!
# Formulas

The integer expressions that scripts compute with, and their values.  The numbers
are those of 64 bits: what does not fit is cut off.
-/

namespace Polyglot.Shell

/-- What is wrong with a formula. -/
inductive FormulaFault where
  /-- Something else stands where a part of the formula is expected. -/
  | expecting (part : String)
  | divisionByZero
  /-- A variable has a value that is no number. -/
  | illegalNumber (value : Octets)
  deriving Repr, DecidableEq

/-- What a script says of a fault in a formula. -/
def FormulaFault.message (formula : Octets) (fault : FormulaFault) : String :=
  let quoted := "\"" ++ Octets.toText formula ++ "\""
  match fault with
  | .expecting part => s!"arithmetic expression: expecting {part}: {quoted}"
  | .divisionByZero => s!"arithmetic expression: division by zero: {quoted}"
  | .illegalNumber value => s!"Illegal number: {Octets.toText value}"

namespace Formula

/-- The operators that compute a number from two. -/
inductive Operator where
  | multiply
  | divide
  | remainder
  | add
  | subtract
  | shiftLeft
  | shiftRight
  | less
  | atMost
  | greater
  | atLeast
  | equal
  | different
  | bitAnd
  | bitXor
  | bitOr
  deriving Repr, DecidableEq

namespace Operator

/-- How an operator is written. -/
def sign : Operator → String
  | multiply => "*"
  | divide => "/"
  | remainder => "%"
  | add => "+"
  | subtract => "-"
  | shiftLeft => "<<"
  | shiftRight => ">>"
  | less => "<"
  | atMost => "<="
  | greater => ">"
  | atLeast => ">="
  | equal => "=="
  | different => "!="
  | bitAnd => "&"
  | bitXor => "^"
  | bitOr => "|"

/-- The operators by how tightly they bind, those that bind most weakly first. -/
def levels : List (List Operator) :=
  [[bitOr], [bitXor], [bitAnd], [equal, different], [less, atMost, greater, atLeast],
    [shiftLeft, shiftRight], [add, subtract], [multiply, divide, remainder]]

/-- The operators that an assignment can join to the equals sign. -/
def assigning : List Operator :=
  [multiply, divide, remainder, add, subtract, shiftLeft, shiftRight, bitAnd, bitXor, bitOr]

/-- The number that stands for a truth value. -/
def truth (holds : Bool) : Int64 := if holds then 1 else 0

/-- What an operator computes.  A shift goes by the amount modulo 64, a quotient
toward zero; only a division by zero has no result. -/
def compute (left right : Int64) : Operator → Except FormulaFault Int64
  | multiply => .ok (left * right)
  | divide => if right = 0 then .error .divisionByZero else .ok (left / right)
  | remainder => if right = 0 then .error .divisionByZero else .ok (left % right)
  | add => .ok (left + right)
  | subtract => .ok (left - right)
  | shiftLeft => .ok (left <<< right)
  | shiftRight => .ok (left >>> right)
  | less => .ok (truth (left < right))
  | atMost => .ok (truth (left ≤ right))
  | greater => .ok (truth (right < left))
  | atLeast => .ok (truth (right ≤ left))
  | equal => .ok (truth (left = right))
  | different => .ok (truth (left ≠ right))
  | bitAnd => .ok (left &&& right)
  | bitXor => .ok (left ^^^ right)
  | bitOr => .ok (left ||| right)

end Operator

end Formula

/-- A formula. -/
inductive Formula where
  | number (value : Int64)
  /-- The value of a variable. -/
  | named (name : Octets)
  | negate (operand : Formula)
  | invert (operand : Formula)
  | complement (operand : Formula)
  | binary (operator : Formula.Operator) (left right : Formula)
  | both (left right : Formula)
  | either (left right : Formula)
  | choice (condition yes no : Formula)
  /-- Assigns a value to a variable, joined to the old one if there is an operator. -/
  | assign (name : Octets) (operator : Option Formula.Operator) (value : Formula)
  deriving Repr

/-- The values that variables have: those that a formula has assigned, latest first, and for
the others their texts. -/
structure Formula.Scope where
  text : Octets → Octets
  assigned : List (Octets × Int64) := []

/-- The number that the digits of a base write. -/
def Octets.digitsToNat (base : Nat) (digits : Octets) : Nat :=
  digits.foldl (fun value character => value * base + digit character) 0
where
  /-- The number that a digit stands for. -/
  digit (character : Char) : Nat :=
    if character.isDigit then character.toNat - '0'.toNat
    else character.toLower.toNat - 'a'.toNat + 10

/-- Splits off the number at the start of a text that begins with a digit: in base 16
after `0x`, in base 8 after a zero, and else in base 10. -/
def Octets.leadingNumber (octets : Octets) : Nat × Octets :=
  let hexadecimal (character : Char) : Bool :=
    character.isDigit || ('a' ≤ character.toLower && character.toLower ≤ 'f')
  let octal (character : Char) : Bool := '0' ≤ character && character ≤ '7'
  let split (base : Nat) (isDigit : Char → Bool) (text : Octets) : Nat × Octets :=
    (digitsToNat base (text.takeWhile isDigit), text.dropWhile isDigit)
  match octets with
  | '0' :: mark :: first :: rest =>
    if mark.toLower = 'x' && hexadecimal first then split 16 hexadecimal (first :: rest)
    else split 8 octal octets
  | '0' :: _ => split 8 octal octets
  | _ => split 10 Char.isDigit octets

/-- The greatest number. -/
def Formula.greatest : Nat := 0x7fffffffffffffff

namespace Formula

/-- The number that the text of a variable writes; an empty one counts as zero, and one
out of range is none. -/
def numberOf (text : Octets) : Except FormulaFault Int64 :=
  let isBlank : Char → Bool := [' ', '\t', '\n', '\x0b', '\x0c', '\x0d'].contains
  let (negative, digits) :=
    match text.dropWhile isBlank with
    | '-' :: digits => (true, digits)
    | '+' :: digits => (false, digits)
    | digits => (false, digits)
  if digits.head?.any Char.isDigit then
    let (value, rest) := Octets.leadingNumber digits
    let limit := if negative then greatest + 1 else greatest
    if rest.all isBlank && value ≤ limit then
      .ok (Int64.ofInt (if negative then -(value : Int) else value))
    else .error (.illegalNumber text)
  else if text.all isBlank then .ok 0
  else .error (.illegalNumber text)

namespace Scope

/-- The value of a variable. -/
def value (scope : Scope) (name : Octets) : Except FormulaFault Int64 :=
  match scope.assigned.find? (·.1 = name) with
  | some (_, value) => .ok value
  | none => numberOf (scope.text name)

/-- Gives a variable a value. -/
def assign (scope : Scope) (name : Octets) (value : Int64) : Scope :=
  { scope with assigned := (name, value) :: scope.assigned }

end Scope

/-- The value of a formula, and the variables after it; what a condition rules out is not
computed. -/
def evaluate : Formula → Scope → Except FormulaFault (Int64 × Scope)
  | number value, scope => .ok (value, scope)
  | named name, scope => do return (← scope.value name, scope)
  | negate operand, scope => do
    let (value, scope) ← operand.evaluate scope
    return (-value, scope)
  | invert operand, scope => do
    let (value, scope) ← operand.evaluate scope
    return (Operator.truth (value = 0), scope)
  | complement operand, scope => do
    let (value, scope) ← operand.evaluate scope
    return (~~~value, scope)
  | binary operator left right, scope => do
    let (left, scope) ← left.evaluate scope
    let (right, scope) ← right.evaluate scope
    return (← operator.compute left right, scope)
  | both left right, scope => do
    let (left, scope) ← left.evaluate scope
    if left = 0 then return (0, scope)
    else
      let (right, scope) ← right.evaluate scope
      return (Operator.truth (right ≠ 0), scope)
  | either left right, scope => do
    let (left, scope) ← left.evaluate scope
    if left ≠ 0 then return (1, scope)
    else
      let (right, scope) ← right.evaluate scope
      return (Operator.truth (right ≠ 0), scope)
  | choice condition yes no, scope => do
    let (condition, scope) ← condition.evaluate scope
    if condition ≠ 0 then yes.evaluate scope else no.evaluate scope
  | assign name operator value, scope => do
    let (value, scope) ← value.evaluate scope
    let value ←
      match operator with
      | none => pure value
      | some operator => operator.compute (← scope.value name) value
    return (value, scope.assign name value)

end Formula

end Polyglot.Shell
