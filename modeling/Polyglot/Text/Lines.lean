import Polyglot.Text.Blank

/-!
# Lines and pieces of texts

A line ends with a line feed; a carriage return right before it belongs to the
end of the line.  A last line needs no line feed.
-/

namespace Polyglot.Text

/-- Splits a list at every element that satisfies `separates`; the separators
are in no piece, so there is one piece more than there are separators. -/
def splitOnAll {α : Type} (separates : α → Bool) : List α → List (List α)
  | [] => [[]]
  | element :: rest =>
    if separates element then [] :: splitOnAll separates rest
    else
      match splitOnAll separates rest with
      | [] => [[element]]
      | piece :: pieces => (element :: piece) :: pieces

/-- Splits a list after every element that satisfies `ends`; every piece has at
least one element and the pieces together are the list. -/
def splitAfter {α : Type} (ends : α → Bool) : List α → List (List α)
  | [] => []
  | element :: rest =>
    if ends element then [element] :: splitAfter ends rest
    else
      match splitAfter ends rest with
      | [] => [[element]]
      | piece :: pieces => (element :: piece) :: pieces

@[simp] theorem flatten_splitAfter {α : Type} (ends : α → Bool) (elements : List α) :
    (splitAfter ends elements).flatten = elements := by
  induction elements with
  | nil => rfl
  | cons element rest ih =>
    rw [splitAfter]
    split
    · simp [ih]
    · split
      · next none_ => simp [none_] at ih; simp [← ih]
      · next pieces => rw [pieces] at ih; simpa using ih

/-- The pieces of a text between the places where `separator` stands. -/
def splitAt (separator : Char) (text : String) : List String :=
  (splitOnAll (· = separator) text.toList).map String.ofList

/-- What stands before the first place where `separator` stands, or the whole
text. -/
def before (separator : Char) (text : String) : String :=
  String.ofList (text.toList.takeWhile (· ≠ separator))

/-- A line without its line feed and a carriage return before that. -/
def chomp (line : List Char) : List Char :=
  match line.reverse with
  | '\n' :: '\r' :: rest => rest.reverse
  | '\n' :: rest => rest.reverse
  | _ => line

/-- The lines of a text without their ends. -/
def lines (text : String) : List String :=
  (splitAfter (· = '\n') text.toList).map fun line => String.ofList (chomp line)

/-- What follows `start` in a list that begins with it. -/
def stripPrefix? {α : Type} [BEq α] (start : List α) (elements : List α) : Option (List α) :=
  if start.isPrefixOf elements then some (elements.drop start.length) else none

/-- What stands before the first place where `pattern` begins, or the whole
list. -/
def beforeList {α : Type} [BEq α] (pattern : List α) : List α → List α
  | [] => []
  | element :: rest =>
    if pattern.isPrefixOf (element :: rest) then [] else element :: beforeList pattern rest

/-- Whether `pattern` stands somewhere in a list. -/
def containsList {α : Type} [BEq α] (pattern : List α) : List α → Bool
  | [] => pattern.isEmpty
  | element :: rest => pattern.isPrefixOf (element :: rest) || containsList pattern rest

/-- Whether `pattern` stands somewhere in a text. -/
def containsText (pattern text : String) : Bool :=
  containsList pattern.toList text.toList

/-- Replaces every place where `pattern` stands, from the left and without
overlap; `skip` counts the elements of a place that are still to be passed
over. -/
def replaceFrom {α : Type} [BEq α] (pattern value : List α) : Nat → List α → List α
  | _, [] => []
  | skip + 1, _ :: rest => replaceFrom pattern value skip rest
  | 0, element :: rest =>
    if pattern.isPrefixOf (element :: rest) then
      value ++ replaceFrom pattern value (pattern.length - 1) rest
    else element :: replaceFrom pattern value 0 rest

/-- Replaces every place where `pattern` stands, from the left and without
overlap.  The empty pattern stands before every character and at the end. -/
def replaceAll (pattern value text : String) : String :=
  if pattern.isEmpty then
    value ++ String.join (text.toList.map fun character => String.singleton character ++ value)
  else String.ofList (replaceFrom pattern.toList value.toList 0 text.toList)

/-- A text with its ASCII letters in lower case. -/
def asciiLower (text : String) : String :=
  String.ofList (text.toList.map Char.toLower)

end Polyglot.Text
