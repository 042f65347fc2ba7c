import Polyglot.Scan.Lexeme
import Polyglot.Text.Lines

/-!
# Imported modules

The top-level modules that the import statements of Python code name, each
once, in the order of first mention.  Relative imports and `__future__` name no
module to be fetched.
-/

namespace Polyglot.Scan

open Text

/-- Whether a name has only the ASCII characters of identifiers. -/
def isIdentifier (name : String) : Bool :=
  (encode name).all isIdentifierByte

/-- The module at the root of a dotted name, if it is one to be fetched. -/
def importRoot? (name : String) : Option String :=
  let root := before '.' (trim name)
  if !root.isEmpty && root ≠ "__future__" && isIdentifier root then some root else none

/-- The dotted names that the import statement on a line mentions. -/
def importedNames (line : String) : List String :=
  let statement := trim (before '#' line)
  match stripPrefix? "import ".toList statement.toList with
  | some items =>
    (splitAt ',' (String.ofList items)).map fun item =>
      String.ofList (beforeList " as ".toList item.toList)
  | none =>
    match stripPrefix? "from ".toList statement.toList with
    | none => []
    | some clause =>
      let name := (words (String.ofList clause)).headD ""
      if !name.startsWith "." && containsList " import ".toList clause then [name] else []

/-- The modules that Python code imports. -/
def scanImports (code : String) : List String :=
  (lines code).flatMap importedNames |>.filterMap importRoot? |>.eraseDups

end Polyglot.Scan
