/-!
# Messages

What hosts and isolated contexts say to each other.  A sandbox is a fresh
context for every run; an interpreter is kept warm by a worker and used for one
run after the other.
-/

namespace Polyglot

/-- From the host to a sandbox. -/
inductive HostMessage where
  | executeCode (code : String)
  | inputResponse (value : String)
  deriving Repr, DecidableEq

/-- From a sandbox to the host. -/
inductive SandboxMessage where
  | stdout (data : String)
  | stderr (data : String)
  | inputRequest (message : String)
  | executionComplete
  deriving Repr, DecidableEq

/-- How an interpreter is to run a submission. -/
inductive RunMode where
  /-- As it is written. -/
  | sync
  /-- By awaiting the coroutine that it defines. -/
  | async
  deriving Repr, DecidableEq

/-- From a worker to its interpreter. -/
inductive InterpreterRequest where
  | run (code : String) (mode : RunMode) (packages : List String)
  | inputResponse (value : String)
  deriving Repr, DecidableEq

/-- From an interpreter to its worker, and on to the host. -/
inductive WorkerMessage where
  | ready
  | stdout (data : String)
  | stderr (data : String)
  | inputRequest (prompt : String)
  | done
  | error (data : String)
  deriving Repr, DecidableEq

end Polyglot
