import Polyglot.Toml.Lexical

/-!
# TOML documents

A document is a sequence of lines, each of which is empty, opens a table or sets
a key in the table that was opened last.
-/

namespace Polyglot.Toml

/-- The characters after blanks, ends of lines and comments, inside brackets. -/
def skipTrivia : (fuel : Nat) → List Char → Option (List Char)
  | 0, _ => none
  | fuel + 1, text =>
    let rest := skipComment (skipSpace text)
    match lineEnd? rest with
    | some rest => skipTrivia fuel rest
    | none => if rest.length < (skipSpace text).length then none else some rest

mutual

/-- Reads a value; `fuel` bounds the tokens that are read. -/
def readValue? : (fuel : Nat) → List Char → Option (Value × List Char)
  | 0, _ => none
  | fuel + 1, text =>
    match text with
    | '"' :: _ | '\'' :: _ => (string? text).map fun (found, rest) => (.string found, rest)
    | '[' :: rest => do
      let (elements, rest) ← readElements? fuel rest
      return (.array elements, rest)
    | '{' :: rest =>
      match skipSpace rest with
      | '}' :: rest => some (.table .closed [], rest)
      | _ => do
        let (entries, rest) ← readEntries? fuel [] rest
        return (.table .closed entries, rest)
    | _ => scalarValue? text

/-- Reads the elements of an array up to its closing bracket; a comma may stand
before it. -/
def readElements? : (fuel : Nat) → List Char → Option (List Value × List Char)
  | 0, _ => none
  | fuel + 1, text => do
    match ← skipTrivia (text.length + 1) text with
    | ']' :: rest => return ([], rest)
    | text =>
      let (element, rest) ← readValue? fuel text
      match ← skipTrivia (rest.length + 1) rest with
      | ',' :: rest =>
        let (elements, rest) ← readElements? fuel rest
        return (element :: elements, rest)
      | ']' :: rest => return ([element], rest)
      | _ => none

/-- Reads the entries of a table in braces, of which there is at least one, up
to its closing brace. -/
def readEntries? : (fuel : Nat) → Entries → List Char → Option (Entries × List Char)
  | 0, _, _ => none
  | fuel + 1, entries, text => do
    let (path, rest) ← key? (text.length + 1) text
    let rest ← expect? '=' rest
    let (value, rest) ← readValue? fuel (skipSpace rest)
    let entries ← insertDotted value entries path
    match skipSpace rest with
    | ',' :: rest => readEntries? fuel entries rest
    | '}' :: rest => return (entries, rest)
    | _ => none

end

/-- What a line says. -/
inductive Line where
  | empty
  /-- Opens a table. -/
  | header (path : List String)
  /-- Opens a new element of an array of tables. -/
  | element (path : List String)
  /-- Sets a key. -/
  | entry (path : List String) (value : Value)

/-- Reads the key of a header and the brackets that close it. -/
def headerKey? (closing : List Char) (text : List Char) : Option (List String × List Char) := do
  let (path, rest) ← key? (text.length + 1) text
  if closing.isPrefixOf rest then some (path, rest.drop closing.length) else none

/-- Reads what a line says, without its end. -/
def line? (text : List Char) : Option (Line × List Char) :=
  match skipSpace text with
  | [] => some (.empty, [])
  | '\n' :: rest => some (.empty, '\n' :: rest)
  | '\r' :: rest => some (.empty, '\r' :: rest)
  | '#' :: rest => some (.empty, '#' :: rest)
  | '[' :: '[' :: rest => do
    let (path, rest) ← headerKey? [']', ']'] rest
    return (.element path, rest)
  | '[' :: rest => do
    let (path, rest) ← headerKey? [']'] rest
    return (.header path, rest)
  | text => do
    let (path, rest) ← key? (text.length + 1) text
    let rest := skipSpace (← expect? '=' rest)
    let (value, rest) ← readValue? (rest.length + 1) rest
    return (.entry path value, rest)

/-- A document that is being read: its tables and the path of the one that was
opened last. -/
structure Draft where
  root : Entries := []
  current : List String := []

/-- The path to the table that holds a table, and its own key. -/
def splitPath? (path : List String) : Option (List String × String) :=
  path.getLast?.map (path.dropLast, ·)

/-- Adds what a line says. -/
def Draft.add? (draft : Draft) : Line → Option Draft
  | .empty => some draft
  | .header path => do
    let (way, key) ← splitPath? path
    return ⟨← atHeader (openTable key) draft.root way, path⟩
  | .element path => do
    let (way, key) ← splitPath? path
    return ⟨← atHeader (openElement key) draft.root way, path⟩
  | .entry path value => do
    return { draft with
      root := ←
        atHeader (fun entries => insertDotted value entries path) draft.root draft.current }

/-- Reads the lines of a document; `fuel` bounds their number. -/
def readLines? : (fuel : Nat) → Draft → List Char → Option Draft
  | 0, _, _ => none
  | fuel + 1, draft, text => do
    let (line, rest) ← line? text
    let draft ← draft.add? line
    match skipComment (skipSpace rest) with
    | [] => some draft
    | rest => readLines? fuel draft (← lineEnd? rest)

/-- The entries of a document.  A byte order mark may stand before it. -/
def parse? (text : String) : Option Entries :=
  let characters :=
    match text.toList with
    | '\uFEFF' :: rest => rest
    | characters => characters
  (readLines? (characters.length + 1) {} characters).map (·.root)

end Polyglot.Toml
