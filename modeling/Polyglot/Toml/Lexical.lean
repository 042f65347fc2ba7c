import Polyglot.Toml.Value

/-!
# TOML tokens

Readers of strings, keys, numbers and dates.  Every reader takes the characters
that are left and gives back what it read with the characters after it.
-/

namespace Polyglot.Toml

/-- Whether a character is a space or a tab. -/
def isSpace (character : Char) : Bool := character = ' ' || character = '\t'

/-- The characters after spaces and tabs. -/
def skipSpace (text : List Char) : List Char := text.dropWhile isSpace

/-- Whether a character may stand in comments and literal strings. -/
def isPlain (character : Char) : Bool :=
  character = '\t' || (0x20 ≤ character.toNat && character.toNat ≠ 0x7F)

/-- The characters after a comment, which may be missing. -/
def skipComment : List Char → List Char
  | '#' :: rest => rest.dropWhile isPlain
  | text => text

/-- The characters after the end of a line; none where no line ends. -/
def lineEnd? : List Char → Option (List Char)
  | '\n' :: rest => some rest
  | '\r' :: '\n' :: rest => some rest
  | _ => none

/-- Whether a character is a decimal digit. -/
def isDigit (character : Char) : Bool := '0' ≤ character && character ≤ '9'

/-- The value of a digit in bases up to sixteen. -/
def digitValue? (character : Char) : Option Nat :=
  if isDigit character then some (character.toNat - '0'.toNat)
  else if 'a' ≤ character && character ≤ 'f' then some (character.toNat - 'a'.toNat + 10)
  else if 'A' ≤ character && character ≤ 'F' then some (character.toNat - 'A'.toNat + 10)
  else none

/-- The number that digits write in a base; none where one is no digit. -/
def number? (base : Nat) (digits : List Char) : Option Nat :=
  digits.foldlM (fun value digit => do
    let next ← digitValue? digit
    guard (next < base)
    return value * base + next) 0

/-- The character that hexadecimal digits name. -/
def scalar? (digits : List Char) : Option Char := do
  let value ← number? 16 digits
  if valid : value.isValidChar then some (Char.ofNatAux value valid) else none

/-- The character of an escape after its backslash. -/
def escape? : List Char → Option (Char × List Char)
  | 'b' :: rest => some ('\x08', rest)
  | 't' :: rest => some ('\t', rest)
  | 'n' :: rest => some ('\n', rest)
  | 'f' :: rest => some ('\x0C', rest)
  | 'r' :: rest => some ('\r', rest)
  | '"' :: rest => some ('"', rest)
  | '\\' :: rest => some ('\\', rest)
  | 'u' :: rest =>
    if 4 ≤ rest.length then (scalar? (rest.take 4)).map (·, rest.drop 4) else none
  | 'U' :: rest =>
    if 8 ≤ rest.length then (scalar? (rest.take 8)).map (·, rest.drop 8) else none
  | _ => none

/-- Reads a basic string after its quote. -/
def basic? : (fuel : Nat) → List Char → Option (List Char × List Char)
  | 0, _ => none
  | fuel + 1, text =>
    match text with
    | '"' :: rest => some ([], rest)
    | '\\' :: rest => do
      let (character, rest) ← escape? rest
      let (characters, rest) ← basic? fuel rest
      return (character :: characters, rest)
    | character :: rest => do
      guard (isPlain character)
      let (characters, rest) ← basic? fuel rest
      return (character :: characters, rest)
    | [] => none

/-- Reads a literal string after its quote. -/
def literal? : List Char → Option (List Char × List Char)
  | '\'' :: rest => some ([], rest)
  | character :: rest => do
    guard (isPlain character)
    let (characters, rest) ← literal? rest
    return (character :: characters, rest)
  | [] => none

/-- Splits quotes at the end of a string in triple quotes: up to two of them are
part of the string. -/
def closing? (quote : Char) (text : List Char) : Option (List Char × List Char) :=
  let quotes := (text.takeWhile (· = quote)).length
  if quotes < 3 then none
  else
    let inside := min (quotes - 3) 2
    some (List.replicate inside quote, text.drop (inside + 3))

/-- The characters after blanks and ends of lines. -/
def skipBlankLines (text : List Char) : List Char :=
  text.dropWhile fun character => isSpace character || character = '\n' || character = '\r'

/-- The characters after a backslash that ends its line, and after all blanks
that follow. -/
def continuation? (text : List Char) : Option (List Char) :=
  match lineEnd? (skipSpace text) with
  | some rest => some (skipBlankLines rest)
  | none => none

/-- Reads a basic string in triple quotes after its quotes. -/
def basicLines? : (fuel : Nat) → List Char → Option (List Char × List Char)
  | 0, _ => none
  | fuel + 1, text =>
    match closing? '"' text with
    | some found => some found
    | none =>
      match text with
      | '\\' :: rest =>
        match continuation? rest with
        | some rest => basicLines? fuel rest
        | none => do
          let (character, rest) ← escape? rest
          let (characters, rest) ← basicLines? fuel rest
          return (character :: characters, rest)
      | '\r' :: '\n' :: rest => do
        let (characters, rest) ← basicLines? fuel rest
        return ('\n' :: characters, rest)
      | character :: rest => do
        guard (isPlain character || character = '\n')
        let (characters, rest) ← basicLines? fuel rest
        return (character :: characters, rest)
      | [] => none

/-- Reads a literal string in triple quotes after its quotes. -/
def literalLines? : (fuel : Nat) → List Char → Option (List Char × List Char)
  | 0, _ => none
  | fuel + 1, text =>
    match closing? '\'' text with
    | some found => some found
    | none =>
      match text with
      | '\r' :: '\n' :: rest => do
        let (characters, rest) ← literalLines? fuel rest
        return ('\n' :: characters, rest)
      | character :: rest => do
        guard (isPlain character || character = '\n')
        let (characters, rest) ← literalLines? fuel rest
        return (character :: characters, rest)
      | [] => none

/-- The characters after an end of line right behind triple quotes. -/
def skipFirstLineEnd (text : List Char) : List Char :=
  (lineEnd? text).getD text

/-- Reads a string of any kind, from its quotes on. -/
def string? (text : List Char) : Option (String × List Char) :=
  let found :=
    match text with
    | '"' :: '"' :: '"' :: rest => basicLines? (rest.length + 1) (skipFirstLineEnd rest)
    | '\'' :: '\'' :: '\'' :: rest => literalLines? (rest.length + 1) (skipFirstLineEnd rest)
    | '"' :: rest => basic? (rest.length + 1) rest
    | '\'' :: rest => literal? rest
    | _ => none
  found.map fun (characters, rest) => (String.ofList characters, rest)

/-- Whether a character may stand in a key without quotes. -/
def isKeyCharacter (character : Char) : Bool :=
  character.isAlphanum || character = '_' || character = '-'

/-- Reads one part of a key. -/
def simpleKey? (text : List Char) : Option (String × List Char) :=
  match text with
  | '"' :: rest =>
    (basic? (rest.length + 1) rest).map fun (key, rest) => (String.ofList key, rest)
  | '\'' :: rest => (literal? rest).map fun (key, rest) => (String.ofList key, rest)
  | _ =>
    let key := text.takeWhile isKeyCharacter
    if key.isEmpty then none else some (String.ofList key, text.dropWhile isKeyCharacter)

/-- Reads a key with points between its parts. -/
def key? : (fuel : Nat) → List Char → Option (List String × List Char)
  | 0, _ => none
  | fuel + 1, text => do
    let (part, rest) ← simpleKey? (skipSpace text)
    match skipSpace rest with
    | '.' :: rest =>
      let (parts, rest) ← key? fuel rest
      return (part :: parts, rest)
    | rest => return ([part], rest)

/-- Removes the underscores of a number; each must stand between two digits. -/
def joinDigits? (isDigit : Char → Bool) : List Char → Option (List Char)
  | [] => none
  | [digit] => if isDigit digit then some [digit] else none
  | digit :: '_' :: rest => do
    guard (isDigit digit)
    return digit :: (← joinDigits? isDigit rest)
  | digit :: rest => do
    guard (isDigit digit)
    return digit :: (← joinDigits? isDigit rest)

/-- Whether digits are written without needless zeros in front. -/
def isTidy (digits : List Char) : Bool :=
  digits.length = 1 || digits.head? ≠ some '0'

/-- An integer that 64 bits can hold. -/
def bounded? (value : Int) : Option Value :=
  if -0x8000000000000000 ≤ value ∧ value < 0x8000000000000000 then some (.integer value) else none

/-- The integer that a word in some base writes after its mark. -/
def based? (base : Nat) (word : List Char) : Option Value := do
  let digits ← joinDigits? (fun digit => (digitValue? digit).any (· < base)) word
  bounded? (← number? base digits)

/-- The sign in front of a word, and the word after it. -/
def sign : List Char → Option Char × List Char
  | '+' :: rest => (some '+', rest)
  | '-' :: rest => (some '-', rest)
  | word => (none, word)

/-- The decimal integer that a word writes. -/
def decimal? (negative : Bool) (word : List Char) : Option Value := do
  let digits ← joinDigits? isDigit word
  guard (isTidy digits)
  let size : Int := (← number? 10 digits : Nat)
  bounded? (if negative then -size else size)

/-- The exponent that a word writes, with the power of ten it stands for. -/
def exponent? (word : List Char) : Option Int := do
  let (mark, rest) := sign word
  let digits ← joinDigits? isDigit rest
  let size : Int := (← number? 10 digits : Nat)
  return if mark = some '-' then -size else size

/-- The float that a word writes: digits, then a point with digits or an
exponent or both.  One that is too large for a double is refused. -/
def float? (negative : Bool) (word : List Char) : Option Value := do
  let isExponent (character : Char) := character = 'e' || character = 'E'
  let mantissa := word.takeWhile fun character => !isExponent character
  let power := word.dropWhile fun character => !isExponent character
  let whole ← joinDigits? isDigit (mantissa.takeWhile (· ≠ '.'))
  guard (isTidy whole)
  let fraction ←
    match mantissa.dropWhile (· ≠ '.') with
    | [] => some []
    | _ :: digits => joinDigits? isDigit digits
  guard (!fraction.isEmpty || !power.isEmpty)
  let exponent ←
    match power with
    | [] => some 0
    | _ :: rest => exponent? rest
  let digits ← number? 10 (whole ++ fraction)
  let value := Double.ofDecimal negative digits (exponent - fraction.length)
  guard value.isFinite
  return .float value

/-- Reads exactly `count` digits. -/
def digitsOf? (count : Nat) (text : List Char) : Option (Nat × List Char) :=
  let digits := text.take count
  if digits.length = count && digits.all isDigit then
    (number? 10 digits).map (·, text.drop count)
  else none

/-- The number of days of a month. -/
def daysIn (year month : Nat) : Nat :=
  if month = 2 then
    if (year % 4 = 0 && year % 100 ≠ 0) || year % 400 = 0 then 29 else 28
  else if [4, 6, 9, 11].contains month then 30
  else 31

/-- Reads a character that must stand here. -/
def expect? (character : Char) : List Char → Option (List Char)
  | first :: rest => if first = character then some rest else none
  | [] => none

/-- Reads a date and gives back its text. -/
def date? (text : List Char) : Option (String × List Char) := do
  let (year, rest) ← digitsOf? 4 text
  let (month, rest) ← digitsOf? 2 (← expect? '-' rest)
  let (day, rest) ← digitsOf? 2 (← expect? '-' rest)
  guard (1 ≤ month ∧ month ≤ 12 ∧ 1 ≤ day ∧ day ≤ daysIn year month)
  return (String.ofList (text.take 10), rest)

/-- The text of a fraction of a second: at most nine digits, without the zeros at
its end. -/
def fractionText (digits : List Char) : String :=
  let kept := ((digits.take 9).reverse.dropWhile (· = '0')).reverse
  if kept.isEmpty then "" else String.ofList ('.' :: kept)

/-- Reads a time of day and gives back its text. -/
def time? (text : List Char) : Option (String × List Char) := do
  let (hour, rest) ← digitsOf? 2 text
  let (minute, rest) ← digitsOf? 2 (← expect? ':' rest)
  let (second, rest) ← digitsOf? 2 (← expect? ':' rest)
  guard (hour ≤ 23 ∧ minute ≤ 59 ∧ second ≤ 60)
  let clock := String.ofList (text.take 8)
  match rest with
  | '.' :: digits =>
    let fraction := digits.takeWhile isDigit
    guard !fraction.isEmpty
    return (clock ++ fractionText fraction, digits.dropWhile isDigit)
  | _ => return (clock, rest)

/-- Reads the offset from universal time, if there is one, and gives back its
text. -/
def offset? (text : List Char) : Option (String × List Char) :=
  match text with
  | 'Z' :: rest | 'z' :: rest => some ("Z", rest)
  | mark :: rest =>
    if mark = '+' || mark = '-' then do
      let (hour, after) ← digitsOf? 2 rest
      let (minute, after) ← digitsOf? 2 (← expect? ':' after)
      guard (hour ≤ 23 ∧ minute ≤ 59)
      return (String.ofList (mark :: rest.take 5), after)
    else some ("", text)
  | [] => some ("", [])

/-- Reads the time after a date, if there is one. -/
def timeAfterDate? (date : String) (text : List Char) : Option (String × List Char) :=
  match text with
  | mark :: rest =>
    if mark = 'T' || mark = 't' || (mark = ' ' && (rest.head?.any isDigit)) then do
      let (time, rest) ← time? rest
      let (offset, rest) ← offset? rest
      return (date ++ "T" ++ time ++ offset, rest)
    else some (date, text)
  | [] => some (date, [])

/-- Reads a date, a time or both. -/
def datetime? (text : List Char) : Option (Value × List Char) :=
  match date? text with
  | some (date, rest) => (timeAfterDate? date rest).map fun (found, rest) => (.datetime found, rest)
  | none => (time? text).map fun (time, rest) => (.datetime time, rest)

/-- Whether a date or a time begins here. -/
def looksLikeDatetime (text : List Char) : Bool :=
  let digits := (text.takeWhile isDigit).length
  (digits = 4 && text[4]? = some '-') || (digits = 2 && text[2]? = some ':')

/-- Whether a character may stand in a word that is no string. -/
def isWordCharacter (character : Char) : Bool :=
  character.isAlphanum || character = '_' || character = '-' || character = '+' || character = '.'

/-- The value that a word stands for. -/
def word? (word : List Char) : Option Value :=
  match sign word with
  | (mark, rest) =>
    let negative := mark = some '-'
    match String.ofList rest, mark with
    | "true", none => some (.boolean true)
    | "false", none => some (.boolean false)
    | "inf", _ => some (.float (.infinity negative))
    | "nan", _ => some (.float (.nan negative))
    | _, _ =>
      match mark, rest with
      | none, '0' :: 'x' :: digits => based? 16 digits
      | none, '0' :: 'o' :: digits => based? 8 digits
      | none, '0' :: 'b' :: digits => based? 2 digits
      | _, _ =>
        match decimal? negative rest with
        | some value => some value
        | none => float? negative rest

/-- Reads a value that is no string, array or table. -/
def scalarValue? (text : List Char) : Option (Value × List Char) :=
  if looksLikeDatetime text then datetime? text
  else (word? (text.takeWhile isWordCharacter)).map (·, text.dropWhile isWordCharacter)

end Polyglot.Toml
