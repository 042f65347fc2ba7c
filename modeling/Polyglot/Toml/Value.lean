import Polyglot.Number.Double

/-!
# TOML values

The values of a TOML document, and the tables they are gathered in while it is
read.  How a table came to be decides whether a later line may add to it.
-/

namespace Polyglot.Toml

/-- How a table came to be. -/
inductive Origin where
  /-- A header names a table inside it. -/
  | implied
  /-- A header names it. -/
  | header
  /-- A dotted key names a value inside it. -/
  | dotted
  /-- It is written in braces, or stands in an array in brackets. -/
  | closed
  deriving Repr, DecidableEq

/-- A TOML value. -/
inductive Value where
  | string (text : String)
  | integer (value : Int)
  | float (value : Double)
  | boolean (value : Bool)
  /-- A date, a time or both, in the normal form of its text. -/
  | datetime (text : String)
  | array (elements : List Value)
  /-- An array whose elements are named by headers. -/
  | tables (elements : List Value)
  | table (origin : Origin) (entries : List (String × Value))
  deriving Repr

/-- The entries of a table. -/
abbrev Entries := List (String × Value)

namespace Entries

/-- The value of a key. -/
def get? (entries : Entries) (key : String) : Option Value :=
  (entries.find? (·.1 = key)).map (·.2)

/-- Sets the value of a key, in its place if it has one. -/
def put (entries : Entries) (key : String) (value : Value) : Entries :=
  if entries.any (·.1 = key) then
    entries.map fun entry => if entry.1 = key then (key, value) else entry
  else entries ++ [(key, value)]

end Entries

/-- Adds a value under a dotted key: a path of tables and a last key that must
be free.  The tables on the way are made if they are missing; one that a header
or braces made is left alone. -/
def insertDotted (value : Value) (entries : Entries) : (path : List String) → Option Entries
  | [] => none
  | [key] =>
    match entries.get? key with
    | none => some (entries.put key value)
    | some _ => none
  | key :: next :: rest =>
    match entries.get? key with
    | none => do
      let inner ← insertDotted value [] (next :: rest)
      return entries.put key (.table .dotted inner)
    | some (.table .dotted inside) => do
      let inner ← insertDotted value inside (next :: rest)
      return entries.put key (.table .dotted inner)
    | some (.table .implied inside) => do
      -- A table that only longer headers name may hold dotted keys further in.
      guard !rest.isEmpty
      let inner ← insertDotted value inside (next :: rest)
      return entries.put key (.table .implied inner)
    | some _ => none

/-- Applies a change at the table that a header's path leads to.  The tables on
the way are made if they are missing; in an array of tables the way goes on in
the last one. -/
def atHeader (change : Entries → Option Entries) (entries : Entries) :
    (path : List String) → Option Entries
  | [] => change entries
  | key :: rest =>
    match entries.get? key with
    | none => do
      let inner ← atHeader change [] rest
      return entries.put key (.table .implied inner)
    | some (.table origin inside) => do
      guard (origin ≠ .closed)
      let inner ← atHeader change inside rest
      return entries.put key (.table origin inner)
    | some (.tables elements) => do
      match elements.getLast? with
      | some (.table origin inside) =>
        let inner ← atHeader change inside rest
        return entries.put key (.tables (elements.dropLast ++ [.table origin inner]))
      | _ => none
    | some _ => none

/-- Opens the table of a header: it must be new or only implied so far. -/
def openTable (key : String) (entries : Entries) : Option Entries :=
  match entries.get? key with
  | none => some (entries.put key (.table .header []))
  | some (.table .implied inside) => some (entries.put key (.table .header inside))
  | some _ => none

/-- Opens a new table at the end of the array of a double header. -/
def openElement (key : String) (entries : Entries) : Option Entries :=
  match entries.get? key with
  | none => some (entries.put key (.tables [.table .header []]))
  | some (.tables elements) => some (entries.put key (.tables (elements ++ [.table .header []])))
  | some _ => none

end Polyglot.Toml
