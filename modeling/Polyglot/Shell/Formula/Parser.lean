import Polyglot.Shell.Formula.Basic
import Polyglot.Shell.Word

/-!
# Formulas from text

A formula is read from its tokens.  From the weakest to the tightest there bind the
assignment, the choice, the two connectives, the operators by their levels, and the
signs in front of an operand.
-/

namespace Polyglot.Shell.Formula

/-- A token of a formula. -/
inductive Token where
  | number (value : Int64)
  | name (name : Octets)
  | sign (text : String)
  /-- A character that no formula has; nothing is read beyond it. -/
  | strange
  deriving Repr, DecidableEq

/-- The signs, longer ones before those that they begin with. -/
def signs : List String :=
  ["<<=", ">>=", "==", "!=", "<=", ">=", "<<", ">>", "||", "&&", "|=", "&=", "^=", "*=", "/=",
    "%=", "+=", "-=", "=", "<", ">", "|", "&", "!", "(", ")", "*", "/", "%", "+", "-", "~",
    "^", "?", ":"]

/-- The tokens of a text, at most so many; a number that is too large counts as the
greatest. -/
def tokens : (most : Nat) → Octets → List Token
  | 0, _ => []
  | _, [] => []
  | most + 1, first :: rest =>
    if [' ', '\t', '\n'].contains first then tokens most rest
    else if first.isDigit then
      let (value, rest) := Octets.leadingNumber (first :: rest)
      .number (Int64.ofNat (min value greatest)) :: tokens most rest
    else if isNameStart first then
      .name (first :: rest.takeWhile isNameCharacter) ::
        tokens most (rest.dropWhile isNameCharacter)
    else
      match signs.find? fun sign => sign.toList.isPrefixOf (first :: rest) with
      | some sign => .sign sign :: tokens most ((first :: rest).drop sign.length)
      | none => [.strange]

/-- A formula read from the start of some tokens, and the tokens after it. -/
abbrev Reading := Except FormulaFault (Formula × List Token)

/-- Changes the formula that was read. -/
def Reading.change (reading : Reading) (change : Formula → Formula) : Reading :=
  reading.map fun (formula, rest) => (change formula, rest)

/-- Reads an operand with the signs in front of it, at most so many. -/
def readOperand (inner : List Token → Reading) : (most : Nat) → List Token → Reading
  | most + 1, .sign "+" :: rest => readOperand inner most rest
  | most + 1, .sign "-" :: rest => (readOperand inner most rest).change .negate
  | most + 1, .sign "!" :: rest => (readOperand inner most rest).change .invert
  | most + 1, .sign "~" :: rest => (readOperand inner most rest).change .complement
  | _, .number value :: rest => .ok (.number value, rest)
  | _, .name name :: rest => .ok (.named name, rest)
  | _, .sign "(" :: rest => do
    match ← inner rest with
    | (formula, .sign ")" :: rest) => return (formula, rest)
    | _ => throw (.expecting "')'")
  | _, _ => .error (.expecting "primary")

/-- Goes on with the operators of one level, at most so many of them. -/
def readOperators (operators : List Operator) (operand : List Token → Reading) :
    (most : Nat) → Formula → List Token → Reading
  | most + 1, left, .sign sign :: rest =>
    match operators.find? (·.sign = sign) with
    | none => .ok (left, .sign sign :: rest)
    | some operator => do
      let (right, rest) ← operand rest
      readOperators operators operand most (.binary operator left right) rest
  | _, left, rest => .ok (left, rest)

/-- Reads the operators of several levels. -/
def readLevels (operand : List Token → Reading) :
    List (List Operator) → List Token → Reading
  | [], tokens => operand tokens
  | level :: levels, tokens => do
    let (left, rest) ← readLevels operand levels tokens
    readOperators level (readLevels operand levels) rest.length left rest

/-- Reads operands that a connective joins, at most so many. -/
def readConnected (sign : String) (join : Formula → Formula → Formula) (operand : List Token → Reading) :
    (most : Nat) → List Token → Reading
  | 0, tokens => operand tokens
  | most + 1, tokens => do
    let (left, rest) ← operand tokens
    match rest with
    | .sign found :: following =>
      if found = sign then
        (readConnected sign join operand most following).change (join left)
      else return (left, rest)
    | _ => return (left, rest)

/-- Reads choices, the last part of which may be a choice again, at most so many. -/
def readChoice (inner operand : List Token → Reading) : (most : Nat) → List Token → Reading
  | 0, tokens => operand tokens
  | most + 1, tokens => do
    let (condition, rest) ← operand tokens
    match rest with
    | .sign "?" :: rest =>
      match ← inner rest with
      | (yes, .sign ":" :: rest) =>
        (readChoice inner operand most rest).change (.choice condition yes)
      | _ => throw (.expecting "':'")
    | rest => return (condition, rest)

/-- The variable and the operator of an assignment at the start of some tokens, and the
tokens after it. -/
def assignment? : List Token → Option (Octets × Option Operator × List Token)
  | .name name :: .sign sign :: rest =>
    if sign = "=" then some (name, none, rest)
    else
      (Operator.assigning.find? (·.sign ++ "=" = sign)).map fun operator =>
        (name, some operator, rest)
  | _ => none

/-- Reads a formula with at most so many brackets and assignments in one another. -/
def read : (depth : Nat) → List Token → Reading
  | 0, _ => .error (.expecting "primary")
  | depth + 1, tokens =>
    match assignment? tokens with
    | some (name, operator, rest) => (read depth rest).change (.assign name operator)
    | none =>
      let most := tokens.length
      let conjunction :=
        readConnected "&&" .both (readLevels (readOperand (read depth) most) Operator.levels) most
      readChoice (read depth) (readConnected "||" .either conjunction most) most tokens

/-- The formula that a text is. -/
def parse (text : Octets) : Except FormulaFault Formula := do
  let tokens := tokens text.length text
  match ← read (tokens.length + 1) tokens with
  | (formula, []) => return formula
  | _ => throw (.expecting "EOF")

end Polyglot.Shell.Formula
