import Polyglot.Run.Result

/-!
# Compilations

What a source-to-source compiler is asked for and what it answers.
-/

namespace Polyglot

/-- What a compiler is told besides the code. -/
structure CompilerOptions where
  target : String := "es2020"
  module : String := "es2020"
  strict : Bool := true
  deriving Repr, DecidableEq

/-- The answer of a compiler. -/
structure Compilation where
  success : Bool
  code : Option String := none
  errors : List Diagnostic := []
  deriving Repr, DecidableEq

namespace Compilation

/-- A compilation that produced code. -/
def compiled (code : String) : Compilation := ⟨true, some code, []⟩

/-- A compilation that was refused. -/
def failed (errors : List Diagnostic) : Compilation := ⟨false, none, errors⟩

/-- The messages of a compilation that gave no code, one to a line. -/
def failureText (compilation : Compilation) : String :=
  if compilation.errors.isEmpty then "Unknown compilation error"
  else "\n".intercalate (compilation.errors.map (·.message))

end Compilation

end Polyglot
