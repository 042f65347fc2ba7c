import Polyglot.Json.Basic

/-!
# Records and tagged values

How records and tagged messages are found in JSON values.  A record stands as an
object, or as an array of its fields in order.  A tagged message has its tag in
the member `type`, or as the first element of an array.
-/

namespace Polyglot.Wire

/-- The value of each of the named fields, none for one that is absent. -/
abbrev Fields := List (Option Json)

/-- The value of the only member of that name; `none` if there are several. -/
def uniqueMember? (members : List (Option String × Json)) (name : String) :
    Option (Option Json) :=
  match members.filter (·.1 = some name) with
  | [] => some none
  | [(_, value)] => some (some value)
  | _ => none

/-- The fields of a record.  Members of other names are passed over; a named one
stands at most once. -/
def fields? (names : List String) : Json → Option Fields
  | .object members =>
    if members.all (·.1.isSome) then names.mapM (uniqueMember? members) else none
  | .array elements =>
    if elements.length ≤ names.length then
      some (elements.map some ++ List.replicate (names.length - elements.length) none)
    else none
  | _ => none

/-- A text that must be there. -/
def requiredText? : Option Json → Option String
  | some (.string text) => some text
  | _ => none

/-- A text that is empty when it is absent. -/
def textOrEmpty? : Option Json → Option String
  | none => some ""
  | some (.string text) => some text
  | _ => none

/-- A text that may be absent or null. -/
def optionalText? : Option Json → Option (Option String)
  | none | some .null => some none
  | some (.string text) => some (some text)
  | _ => none

/-- A truth value that must be there. -/
def requiredTruth? : Option Json → Option Bool
  | some (.boolean value) => some value
  | _ => none

/-- A count of at most 32 bits that may be absent or null. -/
def optionalCount? : Option Json → Option (Option UInt32)
  | none | some .null => some none
  | some (.number number) => do
    let value ← number.toNat?
    if value < UInt32.size then some (some (.ofNat value)) else none
  | _ => none

/-- A list that is empty when it is absent. -/
def listOrEmpty? {α : Type} (read : Json → Option α) : Option Json → Option (List α)
  | none => some []
  | some (.array elements) => elements.mapM read
  | _ => none

/-- The tag of a message and what is left of it. -/
def tagged? (value : Json) : Option (String × Json) :=
  if value.isHoldable then
    match value with
    | .object members => do
      let tag ← requiredText? (← uniqueMember? members "type")
      return (tag, .object (members.filter (·.1 ≠ some "type")))
    | .array (.string tag :: rest) => some (tag, .array rest)
    | _ => none
  else none

/-- The name of a variant without fields: a string, or an object whose only
member has that name and holds nothing. -/
def variant? (isNothing : Json → Bool) : Json → Option String
  | .string name => some name
  | .object [(some name, value)] => if isNothing value then some name else none
  | _ => none

/-- Whether a value is null. -/
def isNull : Json → Bool
  | .null => true
  | _ => false

/-- Whether a value is null or an object without members. -/
def isNullOrEmpty : Json → Bool
  | .null | .object [] => true
  | _ => false

end Polyglot.Wire
