import Polyglot.Config.Setting

/-!
# Keys as paths

A key at the top of a configuration file may be a path into the settings: names
with points between them, and indices in brackets that count from the end when
they are negative.  A key that is no path is a name as it stands.
-/

namespace Polyglot

/-- A step of a path. -/
inductive PathStep where
  | name (key : String)
  | index (position : Int)
  deriving Repr, DecidableEq

/-- A path: the name it begins with and its steps. -/
structure SettingPath where
  root : String
  steps : List PathStep := []
  deriving Repr, DecidableEq

namespace SettingPath

/-- Reads a name. -/
def name? (text : List Char) : Option (String × List Char) :=
  let name := text.takeWhile Toml.isKeyCharacter
  if name.isEmpty then none else some (String.ofList name, text.dropWhile Toml.isKeyCharacter)

/-- Reads the steps of a path up to the end of the text. -/
def steps? : (fuel : Nat) → List Char → Option (List PathStep)
  | 0, _ => none
  | fuel + 1, text =>
    match text with
    | [] => some []
    | '.' :: rest => do
      let (key, rest) ← name? rest
      return .name key :: (← steps? fuel rest)
    | '[' :: rest => do
      let (mark, rest) := Toml.sign rest
      let digits := rest.takeWhile Toml.isDigit
      guard (mark ≠ some '+' ∧ !digits.isEmpty)
      let rest ← Toml.expect? ']' (rest.dropWhile Toml.isDigit)
      let size : Int := JsonNumber.ofDigits digits
      return .index (if mark = some '-' then -size else size) :: (← steps? fuel rest)
    | _ => none

/-- The path that a key is. -/
def ofKey (key : String) : SettingPath :=
  let found := do
    let (root, rest) ← name? key.toList
    return { root, steps := ← steps? (rest.length + 1) rest : SettingPath }
  found.getD { root := key }

end SettingPath

namespace Setting

/-- The entries of a table; anything else has none. -/
def entries : Setting → List (String × Setting)
  | table entries => entries
  | _ => []

/-- The elements of a list; anything else has none. -/
def elements : Setting → List Setting
  | list elements => elements
  | _ => []

/-- Applies a change at the place that the steps lead to; what is missing on the
way is made, and what is in the way is replaced. -/
def changeAt (change : Setting → Setting) (setting : Setting) : List PathStep → Setting
  | [] => change setting
  | .name key :: rest =>
    let inner := (find? setting.entries key).getD .nothing
    .table (put setting.entries key (changeAt change inner rest))
  | .index position :: rest =>
    let elements := setting.elements
    if position < 0 then
      let back := (-position).toNat
      if back ≤ elements.length then
        let place := elements.length - back
        let inner := elements[place]?.getD .nothing
        .list (elements.set place (changeAt change inner rest))
      else
        let missing := back - elements.length
        .list (changeAt change .nothing rest :: List.replicate (missing - 1) .nothing ++ elements)
    else
      let place := position.toNat
      let grown := elements ++ List.replicate (place + 1 - elements.length) .nothing
      let inner := grown[place]?.getD .nothing
      .list (grown.set place (changeAt change inner rest))

mutual

/-- Lays one setting over another: tables are joined, all else is replaced. -/
def overlay (below : Setting) : Setting → Setting
  | table entries =>
    match below with
    | nothing => .table (overlayEntries [] entries)
    | .table present => .table (overlayEntries present entries)
    | other => if entries.isEmpty then other else .table (overlayEntries [] entries)
  | above => above

/-- Lays entries over the entries of a table. -/
def overlayEntries (present : List (String × Setting)) :
    List (String × Setting) → List (String × Setting)
  | [] => present
  | (key, value) :: rest =>
    overlayEntries (put present key (overlay ((find? present key).getD .nothing) value)) rest

end

/-- The settings that the entries of a configuration file make. -/
def ofEntries (entries : List (String × Setting)) : List (String × Setting) :=
  (entries.foldl
    (fun settings (key, value) =>
      let path := SettingPath.ofKey key
      changeAt (overlay · value) settings (.name path.root :: path.steps))
    (.table [])).entries

end Setting

end Polyglot
