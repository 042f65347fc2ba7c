import Polyglot.Json.Basic

/-!
# Writing JSON

The compact form: no gaps, members in order, and no character escaped that need
not be.
-/

namespace Polyglot.Json

/-- A hexadecimal digit in lower case. -/
def hexDigit (value : Nat) : Char :=
  Nat.digitChar value

/-- A character as it stands in a string. -/
def escape (character : Char) : List Char :=
  if character = '"' then ['\\', '"']
  else if character = '\\' then ['\\', '\\']
  else if character = '\x08' then ['\\', 'b']
  else if character = '\x0C' then ['\\', 'f']
  else if character = '\n' then ['\\', 'n']
  else if character = '\r' then ['\\', 'r']
  else if character = '\t' then ['\\', 't']
  else if character.toNat < 0x20 then
    ['\\', 'u', '0', '0', hexDigit (character.toNat / 16), hexDigit (character.toNat % 16)]
  else [character]

/-- A string with its quotes. -/
def quote (text : String) : List Char :=
  '"' :: text.toList.flatMap escape ++ ['"']

/-- A number as it is written. -/
def printNumber (number : JsonNumber) : List Char :=
  (if number.negative then ['-'] else []) ++ number.whole ++
    (if number.fraction.isEmpty then [] else '.' :: number.fraction) ++
    match number.exponent with
    | none => []
    | some exponent => 'e' :: (toString exponent).toList

mutual

/-- A value in the compact form. -/
def print : Json → List Char
  | null => "null".toList
  | boolean true => "true".toList
  | boolean false => "false".toList
  | number value => printNumber value
  | string text => quote text
  | brokenString => quote ""
  | array elements => '[' :: printElements elements ++ [']']
  | object members => '{' :: printMembers members ++ ['}']

/-- The elements of an array with the commas between them. -/
def printElements : List Json → List Char
  | [] => []
  | [element] => element.print
  | element :: next :: rest => element.print ++ ',' :: printElements (next :: rest)

/-- The members of an object with the commas between them. -/
def printMembers : List (Option String × Json) → List Char
  | [] => []
  | [(name, value)] => quote (name.getD "") ++ ':' :: value.print
  | (name, value) :: next :: rest =>
    quote (name.getD "") ++ ':' :: value.print ++ ',' :: printMembers (next :: rest)

end

/-- The text of a value in the compact form. -/
def toText (value : Json) : String :=
  String.ofList value.print

end Polyglot.Json
