import Polyglot.Json.Parser
import Polyglot.Number.Shortest
import Polyglot.Text.Lines
import Polyglot.Toml.Document

/-!
# Settings

The values of a configuration file whatever its format, and the lenient readings
of them: a number, a truth value and a text may stand for each other where the
meaning is plain.
-/

namespace Polyglot

/-- A value in a configuration. -/
inductive Setting where
  | nothing
  | boolean (value : Bool)
  | integer (value : Int)
  | float (value : Double)
  | text (value : String)
  | list (elements : List Setting)
  | table (entries : List (String × Setting))

namespace Setting

/-- The setting of a key in a list of entries. -/
def find? (entries : List (String × Setting)) (key : String) : Option Setting :=
  (entries.find? (·.1 = key)).map (·.2)

/-- Sets a key in a list of entries, in its place if it is there. -/
def put (entries : List (String × Setting)) (key : String) (value : Setting) :
    List (String × Setting) :=
  if entries.any (·.1 = key) then
    entries.map fun entry => if entry.1 = key then (key, value) else entry
  else entries ++ [(key, value)]

mutual

/-- The setting that a TOML value is; dates and times are texts. -/
def ofToml : Toml.Value → Setting
  | .string value => .text value
  | .integer value => .integer value
  | .float value => .float value
  | .boolean value => .boolean value
  | .datetime value => .text value
  | .array elements => .list (ofTomlElements elements)
  | .tables elements => .list (ofTomlElements elements)
  | .table _ entries => .table (ofTomlEntries entries)

/-- The settings of the elements of an array. -/
def ofTomlElements : List Toml.Value → List Setting
  | [] => []
  | element :: rest => ofToml element :: ofTomlElements rest

/-- The settings of the entries of a table. -/
def ofTomlEntries : List (String × Toml.Value) → List (String × Setting)
  | [] => []
  | (key, value) :: rest => (key, ofToml value) :: ofTomlEntries rest

end

/-- The setting that a JSON number is: an integer if 64 bits hold it. -/
def ofNumber? (number : JsonNumber) : Option Setting :=
  match number.toInt? with
  | some value =>
    if -0x8000000000000000 ≤ value ∧ value < 0x8000000000000000 then some (.integer value)
    else number.toDouble?.map .float
  | none => number.toDouble?.map .float

mutual

/-- The setting that a JSON value is; of members of one name the last one
counts. -/
def ofJson? : Json → Option Setting
  | .null => some .nothing
  | .boolean value => some (.boolean value)
  | .number value => ofNumber? value
  | .string value => some (.text value)
  | .brokenString => none
  | .array elements => (ofJsonElements? elements).map .list
  | .object members => (ofJsonMembers? members []).map .table

/-- The settings of the elements of an array. -/
def ofJsonElements? : List Json → Option (List Setting)
  | [] => some []
  | element :: rest => do
    return (← ofJson? element) :: (← ofJsonElements? rest)

/-- The settings of the members of an object, after those read before. -/
def ofJsonMembers? : List (Option String × Json) → List (String × Setting) →
    Option (List (String × Setting))
  | [], entries => some entries
  | (name, value) :: rest, entries => do
    let setting ← ofJson? value
    ofJsonMembers? rest (put entries (← name) setting)

end

/-- The text that a setting stands for. -/
def asText? : Setting → Option String
  | text value => some value
  | boolean value => some (if value then "true" else "false")
  | integer value => some (toString value)
  | float value => some value.toText
  | _ => none

/-- The truth value that a setting stands for. -/
def asTruth? : Setting → Option Bool
  | boolean value => some value
  | integer value => some (value ≠ 0)
  | float value => some (!value.isZero)
  | text value =>
    let word := Text.asciiLower value
    if ["1", "true", "on", "yes"].contains word then some true
    else if ["0", "false", "off", "no"].contains word then some false
    else none
  | _ => none

/-- The digits of a decimal number without its exponent, and how many of them
stand behind the point; there is at least one digit and at most one point. -/
def mantissa? (word : List Char) : Option (Nat × Nat) := do
  let whole := word.takeWhile Toml.isDigit
  let fraction ←
    match word.dropWhile Toml.isDigit with
    | [] => some []
    | '.' :: digits => if digits.all Toml.isDigit then some digits else none
    | _ => none
  guard (!(whole ++ fraction).isEmpty)
  return (JsonNumber.ofDigits (whole ++ fraction), fraction.length)

/-- The number that a text writes in decimal notation or by name. -/
def parseDouble? (text : String) : Option Double := do
  let (mark, word) := Toml.sign text.toList
  let negative := mark = some '-'
  match Text.asciiLower (String.ofList word) with
  | "inf" | "infinity" => some (.infinity negative)
  | "nan" => some (.nan negative)
  | _ =>
    let isMark (character : Char) := character = 'e' || character = 'E'
    let (digits, places) ← mantissa? (word.takeWhile fun character => !isMark character)
    match word.dropWhile fun character => !isMark character with
    | [] => some (.ofDecimal negative digits (-places))
    | _ :: power =>
      let (mark, power) := Toml.sign power
      guard (!power.isEmpty && power.all Toml.isDigit)
      let size : Int := JsonNumber.ofDigits power
      some (.ofDecimal negative digits ((if mark = some '-' then -size else size) - places))

/-- The number that a setting stands for. -/
def asDouble? : Setting → Option Double
  | float value => some value
  | integer value => some (.ofInt value)
  | boolean value => some (.ofNat (if value then 1 else 0))
  | text value =>
    let word := Text.asciiLower value
    if ["true", "on", "yes"].contains word then some (.ofNat 1)
    else if ["false", "off", "no"].contains word then some (.ofNat 0)
    else parseDouble? word
  | _ => none

/-- The list of texts that a setting stands for. -/
def asTexts? : Setting → Option (List String)
  | list elements => elements.mapM asText?
  | _ => none

/-- The table of texts that a setting stands for. -/
def asTextTable? : Setting → Option (List (String × String))
  | table entries => entries.mapM fun (key, value) => value.asText?.map (key, ·)
  | _ => none

/-- The name of a case that a setting stands for: a text, or the only key of a
table. -/
def asCase? : Setting → Option String
  | text value => some value
  | table [(key, _)] => some key
  | _ => none

/-- What a setting stands for when nothing may be said. -/
def asOptional? {α : Type} (read : Setting → Option α) : Setting → Option (Option α)
  | nothing => some none
  | setting => (read setting).map some

/-- The settings of a record's fields: by name from a table, or in order from a
list. -/
def fields? (names : List String) : Setting → Option (List (Option Setting))
  | table entries => some (names.map (find? entries))
  | list elements => some ((List.range names.length).map fun index => elements[index]?)
  | _ => none

end Setting

end Polyglot
