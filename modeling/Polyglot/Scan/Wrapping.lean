import Polyglot.Scan.Lexeme
import Polyglot.Text.Blank
import Polyglot.Text.Lines

/-!
# Wrapping code in a coroutine

Python code that awaits has to stand in the body of a coroutine.  Every line is
indented, except a line that begins inside a tripled string literal, whose
content must not change.  The coroutine has one line more than the code: its
header.
-/

namespace Polyglot.Scan

open Text

/-- The places, as half-open intervals of offsets, of the tripled string
literals of a text that begins at `offset`. -/
def tripleSpans (offset : Nat) (bytes : Bytes) : List (Nat × Nat) :=
  match bytes with
  | [] => []
  | byte :: rest =>
    match _skipped : skip? .python byte rest with
    | none => tripleSpans (offset + 1) rest
    | some after =>
      let finish := offset + (rest.length + 1 - after.length)
      if Flavour.python.isQuote byte && opensTriple .python byte rest then
        (offset, finish) :: tripleSpans finish after
      else tripleSpans finish after
termination_by bytes.length
decreasing_by
  · simp
  · exact Nat.lt_succ_of_le (length_skip?_le _skipped)
  · exact Nat.lt_succ_of_le (length_skip?_le _skipped)

/-- How a line is carried into the body. -/
inductive Carriage where
  /-- The line begins inside a literal and stays as it is. -/
  | verbatim
  /-- The line has no content and becomes empty. -/
  | emptied
  /-- The line is indented. -/
  | indented
  deriving Repr, DecidableEq

/-- How a line that begins at `offset` is carried into the body. -/
def carriage (spans : List (Nat × Nat)) (offset : Nat) (line : Bytes) : Carriage :=
  if spans.any fun (start, finish) => start < offset && offset < finish then .verbatim
  else if isBlankText (decode line) then .emptied
  else .indented

/-- A line with the line feed that it may lack. -/
def endLine (line : Bytes) : Bytes :=
  if line.getLast? = some lineFeed then line else line ++ [lineFeed]

/-- The spaces before a line of the body. -/
def indentation : Bytes := encode "    "

/-- A line as it stands in the body. -/
def carry (line : Bytes) : Carriage → Bytes
  | .verbatim => endLine line
  | .emptied => [lineFeed]
  | .indented => indentation ++ endLine line

/-- Every line with the way it is carried; the first one begins at `offset`. -/
def carriages (spans : List (Nat × Nat)) : Nat → List Bytes → List (Bytes × Carriage)
  | _, [] => []
  | offset, line :: rest =>
    (line, carriage spans offset line) :: carriages spans (offset + line.length) rest

/-- The body that lines make; without an indented line it needs a statement of
its own. -/
def body (carried : List (Bytes × Carriage)) : Bytes :=
  carried.flatMap (fun (line, how) => carry line how) ++
    if carried.any (fun (_, how) => how = .indented) then [] else encode "    pass\n"

/-- Wraps code as the body of a coroutine called `name`. -/
def wrapAsync (name code : String) : String :=
  let bytes := encode code
  let carried := carriages (tripleSpans 0 bytes) 0 (splitAfter (· = lineFeed) bytes)
  decode (encode s!"async def {name}():\n" ++ body carried)

end Polyglot.Scan
