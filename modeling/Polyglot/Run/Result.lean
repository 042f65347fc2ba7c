import Polyglot.Text.Blank
import Polyglot.Text.Lines

/-!
# Results of runs

What a run reports: the text of its two output streams and, when a compiler
refused the code, what it said about single places.  A failure of the run itself
is reported on the error stream.
-/

namespace Polyglot

open Text

/-- An output stream of a run. -/
inductive Stream where
  | stdout
  | stderr
  deriving Repr, DecidableEq

/-- Something a compiler says about the code, with its place if it is known. -/
structure Diagnostic where
  message : String
  line : Option UInt32 := none
  column : Option UInt32 := none
  deriving Repr, DecidableEq

/-- The captured output of one run. -/
structure RunResult where
  stdout : String := ""
  stderr : String := ""
  /-- Filled only when compilation failed. -/
  diagnostics : List Diagnostic := []
  deriving Repr, DecidableEq

namespace RunResult

/-- A result that has only standard output. -/
def success (stdout : String) : RunResult := ⟨stdout, "", []⟩

/-- A result that has only standard error. -/
def failure (stderr : String) : RunResult := ⟨"", stderr, []⟩

/-- Whether the run reported anything on the error stream. -/
def hasErrors (result : RunResult) : Bool := !result.stderr.isEmpty

end RunResult

/-- A request to run code of the language that a tag names. -/
structure RunRequest where
  code : String
  language : String
  deriving Repr, DecidableEq

/-- What is said for code that has no character that is not blank. -/
def emptySourceMessage : String := "Error: Code cannot be empty"

/-- A count of at most 32 bits that is written in digits, with or without a plus
sign. -/
def parseCount? (text : String) : Option UInt32 :=
  let digits :=
    match text.toList with
    | '+' :: rest => rest
    | characters => characters
  if digits.isEmpty || !digits.all (fun digit => '0' ≤ digit && digit ≤ '9') then none
  else
    let value := digits.foldl (fun value digit => value * 10 + (digit.toNat - '0'.toNat)) 0
    if value < UInt32.size then some (.ofNat value) else none

/-- The first two neighbours in a list that are both counts. -/
def firstCountPair? : List String → Option (UInt32 × UInt32)
  | first :: second :: rest =>
    match parseCount? (trim first), parseCount? (trim second) with
    | some line, some column => some (line, column)
    | _, _ => firstCountPair? (second :: rest)
  | _ => none

/-- The diagnostic that a line of a compiler's output stands for.  Its place is
the first pair of counts between the colons of the line. -/
def Diagnostic.ofLine (line : String) : Diagnostic :=
  match firstCountPair? (splitAt ':' line) with
  | some (row, column) => ⟨line, some row, some column⟩
  | none => ⟨line, none, none⟩

/-- One diagnostic for each line of a text that is not blank. -/
def Diagnostic.ofText (text : String) : List Diagnostic :=
  ((lines text).map trim).filter (!·.isEmpty) |>.map Diagnostic.ofLine

end Polyglot
