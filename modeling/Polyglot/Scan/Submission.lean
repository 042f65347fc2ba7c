import Polyglot.Scan.Imports
import Polyglot.Scan.Rewriting
import Polyglot.Scan.Wrapping
import Polyglot.Wire.Message

/-!
# Preparing submissions

What becomes of submitted code before an isolated context runs it.  In a sandbox
every prompt is awaited.  For an interpreter, code that reads input is turned
into a coroutine, and all other code runs as it is written.
-/

namespace Polyglot.Scan

/-- The code that a sandbox is given. -/
def prepareForSandbox (code : String) : String :=
  (rewriteCalls .javaScript "prompt" "__runnrPrompt" code).code

/-- The name of the coroutine that code which reads input is turned into. -/
def entryName : String := "__runnr_main__"

/-- The request by which an interpreter runs code. -/
def prepareRun (code : String) : InterpreterRequest :=
  let rewriting := rewriteCalls .python "input" "async_input" code
  if rewriting.changed then
    .run (wrapAsync entryName rewriting.code) .async (scanImports code)
  else .run code .sync (scanImports code)

end Polyglot.Scan
