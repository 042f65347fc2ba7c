import Polyglot.Json.Basic

/-!
# Reading JSON

A reader of the JSON grammar over characters.  Every function takes the text
that is left and gives back what it read with the text after it.
-/

namespace Polyglot.Json

/-- The characters that may stand between the tokens of a JSON text. -/
def isGap (character : Char) : Bool :=
  character = ' ' || character = '\n' || character = '\t' || character = '\r'

/-- A text without the gap at its start. -/
def skipGap (text : List Char) : List Char :=
  text.dropWhile isGap

/-- The value of a hexadecimal digit. -/
def hexDigit? (character : Char) : Option Nat :=
  if '0' ≤ character ∧ character ≤ '9' then some (character.toNat - '0'.toNat)
  else if 'a' ≤ character ∧ character ≤ 'f' then some (character.toNat - 'a'.toNat + 10)
  else if 'A' ≤ character ∧ character ≤ 'F' then some (character.toNat - 'A'.toNat + 10)
  else none

/-- The value of four hexadecimal digits. -/
def codeUnit? (a b c d : Char) : Option Nat := do
  let digits ← [a, b, c, d].mapM hexDigit?
  return digits.foldl (fun value digit => value * 16 + digit) 0

/-- What an escape of one letter stands for. -/
def shortEscape? : Char → Option Char
  | '"' => some '"'
  | '\\' => some '\\'
  | '/' => some '/'
  | 'b' => some '\x08'
  | 'f' => some '\x0C'
  | 'n' => some '\n'
  | 'r' => some '\r'
  | 't' => some '\t'
  | _ => none

/-- A part of a string: a character, or a 16-bit code unit that is escaped. -/
inductive StringPart where
  | character (value : Char)
  | codeUnit (value : Nat)
  deriving Repr, DecidableEq

/-- Reads the parts of a string up to its closing quote. -/
def stringParts? : List Char → Option (List StringPart × List Char)
  | '"' :: rest => some ([], rest)
  | '\\' :: 'u' :: a :: b :: c :: d :: rest => do
    let value ← codeUnit? a b c d
    let (parts, after) ← stringParts? rest
    return (.codeUnit value :: parts, after)
  | '\\' :: letter :: rest => do
    let value ← shortEscape? letter
    let (parts, after) ← stringParts? rest
    return (.character value :: parts, after)
  | value :: rest => do
    guard (0x20 ≤ value.toNat ∧ value ≠ '\\')
    let (parts, after) ← stringParts? rest
    return (.character value :: parts, after)
  | [] => none

/-- Whether a code unit is the first half of a pair. -/
def isHighHalf (unit : Nat) : Bool := 0xD800 ≤ unit && unit ≤ 0xDBFF

/-- Whether a code unit is the second half of a pair. -/
def isLowHalf (unit : Nat) : Bool := 0xDC00 ≤ unit && unit ≤ 0xDFFF

/-- The characters that the parts of a string stand for; none when half of a
pair stands alone. -/
def joinParts? : List StringPart → Option (List Char)
  | [] => some []
  | .character value :: rest => (joinParts? rest).map (value :: ·)
  | .codeUnit high :: .codeUnit low :: rest =>
    if isHighHalf high then
      if isLowHalf low then
        (joinParts? rest).map
          (Char.ofNat (0x10000 + (high - 0xD800) * 0x400 + (low - 0xDC00)) :: ·)
      else none
    else if isLowHalf high then none
    else (joinParts? (.codeUnit low :: rest)).map (Char.ofNat high :: ·)
  | .codeUnit unit :: rest =>
    if isHighHalf unit || isLowHalf unit then none
    else (joinParts? rest).map (Char.ofNat unit :: ·)

/-- Reads a string after its opening quote; a string that has no text is
`none`. -/
def string? (text : List Char) : Option (Option String × List Char) := do
  let (parts, rest) ← stringParts? text
  return ((joinParts? parts).map String.ofList, rest)

/-- Whether a character is a decimal digit. -/
def isDigit (character : Char) : Bool :=
  '0' ≤ character && character ≤ '9'

/-- Reads a run of digits, of which there is at least one. -/
def digits? (text : List Char) : Option (List Char × List Char) :=
  let digits := text.takeWhile isDigit
  if digits.isEmpty then none else some (digits, text.dropWhile isDigit)

/-- Reads the digits before the point: a lone zero, or digits that do not begin
with one. -/
def whole? (text : List Char) : Option (List Char × List Char) := do
  let (digits, rest) ← digits? text
  guard (digits.head? ≠ some '0' ∨ digits.length = 1)
  return (digits, rest)

/-- Reads the point and the digits after it, if there is a point. -/
def fraction? : List Char → Option (List Char × List Char)
  | '.' :: text => digits? text
  | text => some ([], text)

/-- Reads the sign of an exponent: whether it is negative. -/
def exponentSign : List Char → Bool × List Char
  | '-' :: text => (true, text)
  | '+' :: text => (false, text)
  | text => (false, text)

/-- Reads an exponent, if there is one. -/
def exponent? (text : List Char) : Option (Option Int × List Char) :=
  match text with
  | [] => some (none, [])
  | letter :: after =>
    if letter = 'e' ∨ letter = 'E' then do
      let (negative, unsigned) := exponentSign after
      let (digits, rest) ← digits? unsigned
      let size : Int := JsonNumber.ofDigits digits
      return (some (if negative then -size else size), rest)
    else some (none, letter :: after)

/-- Reads a number without its sign. -/
def unsigned? (negative : Bool) (text : List Char) : Option (JsonNumber × List Char) := do
  let (whole, rest) ← whole? text
  let (fraction, rest) ← fraction? rest
  let (exponent, rest) ← exponent? rest
  return (⟨negative, whole, fraction, exponent⟩, rest)

/-- Reads a number. -/
def number? : List Char → Option (JsonNumber × List Char)
  | '-' :: text => unsigned? true text
  | text => unsigned? false text

/-- Reads a word that stands for a value. -/
def word? (word : String) (value : Json) (text : List Char) : Option (Json × List Char) :=
  if word.toList.isPrefixOf text then some (value, text.drop word.length) else none

mutual

/-- Reads a value; `fuel` bounds the tokens that are read. -/
def readValue? : (fuel : Nat) → List Char → Option (Json × List Char)
  | 0, _ => none
  | fuel + 1, text =>
    match skipGap text with
    | '{' :: rest =>
      match skipGap rest with
      | '}' :: rest => some (.object [], rest)
      | _ => do
        let (members, rest) ← readMembers? fuel rest
        return (.object members, rest)
    | '[' :: rest =>
      match skipGap rest with
      | ']' :: rest => some (.array [], rest)
      | _ => do
        let (elements, rest) ← readElements? fuel rest
        return (.array elements, rest)
    | '"' :: rest => do
      let (text, rest) ← string? rest
      return (text.elim .brokenString .string, rest)
    | 'n' :: rest => word? "null" .null ('n' :: rest)
    | 't' :: rest => word? "true" (.boolean true) ('t' :: rest)
    | 'f' :: rest => word? "false" (.boolean false) ('f' :: rest)
    | text => do
      let (value, rest) ← number? text
      return (.number value, rest)

/-- Reads the elements of an array, of which there is at least one, and its
closing bracket. -/
def readElements? : (fuel : Nat) → List Char → Option (List Json × List Char)
  | 0, _ => none
  | fuel + 1, text => do
    let (element, rest) ← readValue? fuel text
    match skipGap rest with
    | ',' :: rest =>
      let (elements, rest) ← readElements? fuel rest
      return (element :: elements, rest)
    | ']' :: rest => return ([element], rest)
    | _ => none

/-- Reads the members of an object, of which there is at least one, and its
closing brace. -/
def readMembers? : (fuel : Nat) → List Char → Option (List (Option String × Json) × List Char)
  | 0, _ => none
  | fuel + 1, text => do
    match skipGap text with
    | '"' :: rest =>
      let (name, rest) ← string? rest
      match skipGap rest with
      | ':' :: rest =>
        let (value, rest) ← readValue? fuel rest
        match skipGap rest with
        | ',' :: rest =>
          let (members, rest) ← readMembers? fuel rest
          return ((name, value) :: members, rest)
        | '}' :: rest => return ([(name, value)], rest)
        | _ => none
      | _ => none
    | _ => none

end

/-- Reads a text that holds one value and nothing else. -/
def parse? (text : String) : Option Json := do
  let (value, rest) ← readValue? (2 * text.length + 2) text.toList
  guard (skipGap rest).isEmpty
  return value

end Polyglot.Json
