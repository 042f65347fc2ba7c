/-!
# Purposes of calls

An executor is called to make its backend ready or to run code on it.
-/

namespace Polyglot

/-- What a call of an executor is for. -/
inductive Purpose where
  /-- To make the backend ready. -/
  | start
  /-- To run code. -/
  | execute (code : String)
  deriving Repr, DecidableEq

end Polyglot
