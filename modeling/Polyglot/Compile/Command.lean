import Polyglot.Exec.Basic
import Polyglot.Run.Compilation

/-!
# Compilers that are commands

The source is the standard input of the command, and the compiled code its standard
output.  When the command fails, every line of its standard error that is not blank
is a diagnostic.
-/

namespace Polyglot.Compile

open Shell Text

/-- The command of a compiler; its words may have placeholders for the options. -/
structure CommandLine where
  command : List String
  env : Environment := []
  deriving Repr

namespace CommandLine

/-- What stands for placeholders in the command. -/
def placeholders (options : CompilerOptions) : List Placeholder :=
  [("\x7btarget\x7d", options.target), ("\x7bmodule\x7d", options.module),
    ("\x7bstrict\x7d", toString options.strict)]

/-- The command for some options. -/
def expand (line : CommandLine) (options : CompilerOptions) : List String :=
  expandCommand (placeholders options) line.command

/-- A refusal for a single reason. -/
def refuse (reason : String) : Compilation := .failed [{ message := reason }]

/-- The answer of a compiler whose process has ended. -/
def answer (source : String) (trace : Exec.Trace) : Compilation :=
  let stdout := Octets.toText trace.out
  if !trace.ending.success then
    let errors := Diagnostic.ofText (Octets.toText trace.err)
    if errors.isEmpty then refuse s!"Compiler exited with {trace.ending.toText}"
    else .failed errors
  else if isBlankText stdout && !isBlankText source then
    refuse "Compilation failed: No output generated"
  else .compiled stdout

/-- Compiles source text. -/
def compile (site : Exec.Site) (line : CommandLine) (source : String)
    (options : CompilerOptions) : Compilation :=
  match Exec.launch site (line.expand options) line.env with
  | .error (.spawn _ reason) => refuse s!"Compiler unavailable: {reason}"
  | .error cause => refuse s!"Compiler unavailable: {cause.message}"
  | .ok job => answer source (job.trace (octets source) true)

end CommandLine

end Polyglot.Compile
