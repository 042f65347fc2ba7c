import Polyglot.Channel.Link
import Polyglot.Channel.Lock
import Polyglot.Failure
import Polyglot.Input.Hook
import Polyglot.Run.Aggregator
import Polyglot.Scan.Submission
import Polyglot.Text.Quoted

/-!
# Workers

A worker keeps an interpreter warm.  It has two halves: the handle, which hosts
use, and the relay, which owns the interpreter and passes requests to it and
messages back.  The halves are joined by a link of their own, so that a host
never waits for the interpreter.  Runs on one handle queue for the lock on its
events.
-/

namespace Polyglot.Worker

/-- What a handle asks of its relay. -/
inductive Request where
  | run (code : String)
  | inputResponse (value : String)
  | terminate
  deriving Repr, DecidableEq

/-- What a relay tells its handle. -/
inductive Event where
  /-- The interpreter said something. -/
  | message (content : WorkerMessage)
  /-- The interpreter is of no use any more; nothing follows. -/
  | fault (reason : String)
  deriving Repr, DecidableEq

/-- How far a relay is. -/
inductive Relay where
  /-- Its interpreter is being launched. -/
  | launching
  /-- It passes on what comes. -/
  | relaying
  /-- It is over. -/
  | returned
  deriving Repr, DecidableEq

/-- Where a run on a handle stands. -/
inductive Phase where
  /-- It waits for the lock. -/
  | queued
  /-- It holds the lock, and its code runs; `pending` are the tickets of the
  input requests that have not been answered to the interpreter, oldest first. -/
  | running (output : Aggregator) (pending : List Nat)
  | finished (result : RunResult)
  /-- The caller has gone away. -/
  | abandoned
  deriving Repr, DecidableEq

/-- A run on a handle. -/
structure Run where
  code : String
  /-- The number of the broker that its input requests go to. -/
  broker : Nat
  phase : Phase := .queued
  deriving Repr, DecidableEq

/-- A worker: the handle and its relay. -/
structure Handle where
  language : String
  /-- The number of the launcher of its interpreter. -/
  launcher : Nat
  /-- Whether nobody has given the worker up. -/
  alive : Bool := true
  /-- From the handle to the relay and back. -/
  line : Link Request Event := {}
  relay : Relay := .launching
  /-- From the relay to the interpreter and back; none before the launch. -/
  interpreter : Option (Link InterpreterRequest WorkerMessage) := none
  /-- The lock on the events. -/
  lock : Lock := {}
  /-- Every run that was asked for, oldest first. -/
  runs : List Run := []
  deriving Repr

namespace Handle

/-- Whether the worker can be given work. -/
def isAlive (handle : Handle) : Bool := handle.alive && !handle.line.isClosed

/-- Gives the worker up. -/
def markDead (handle : Handle) : Handle := { handle with alive := false }

/-- Passes a request to the relay; none if the relay is over. -/
def request? (handle : Handle) (request : Request) : Option Handle := do
  let line ← handle.line.hostSend? request
  return { handle with line }

/-- Gives the worker up and asks the relay to stop, unless the worker was given
up before. -/
def terminate (handle : Handle) : Handle :=
  if handle.alive then (handle.markDead.request? .terminate).getD handle.markDead else handle

/-- Nobody has the handle any more. -/
def drop (handle : Handle) : Handle :=
  let handle := handle.terminate
  { handle with line := handle.line.dropHost }

/-- The printed form of a handle. -/
def toText (handle : Handle) : String :=
  s!"WorkerHandle \x7b language: {Text.quoted handle.language}, alive: {handle.isAlive} \x7d"

/-! ## The relay -/

/-- The relay is over, and its interpreter is let go. -/
def returnRelay (handle : Handle) : Handle :=
  { handle with
    relay := .returned
    line := handle.line.dropContext
    interpreter := handle.interpreter.map Link.dropHost }

/-- The relay tells the handle that it can do no more, and is over. -/
def fault (handle : Handle) (reason : String) : Handle :=
  let line := (handle.line.contextSend? (.fault reason)).getD handle.line
  { handle with line }.returnRelay

/-- The launch of the interpreter has an outcome. -/
def launched (handle : Handle) : Except TransportError Unit → Handle
  | .ok () => { handle with relay := .relaying, interpreter := some {} }
  | .error cause => handle.fault cause.message

/-- Passes what a request says to the interpreter. -/
def forward (handle : Handle) (interpreter : Link InterpreterRequest WorkerMessage)
    (request : InterpreterRequest) : Handle :=
  match interpreter.hostSend? request with
  | some interpreter => { handle with interpreter := some interpreter }
  | none => handle.fault "interpreter stopped accepting requests"

/-- The relay takes the next request of the handle, if there is one.  It is over
when the handle asks for that or has gone away. -/
def turnRequest (handle : Handle) : Option Handle := do
  if handle.relay ≠ .relaying then none
  let interpreter ← handle.interpreter
  match handle.line.contextReceive with
  | (.waiting, _) => none
  | (.gone, _) => return handle.returnRelay
  | (.message request, line) =>
    let handle := { handle with line }
    match request with
    | .run code => return handle.forward interpreter (Scan.prepareRun code)
    | .inputResponse value => return handle.forward interpreter (.inputResponse value)
    | .terminate => return handle.returnRelay

/-- The relay takes the next message of the interpreter, if there is one. -/
def turnMessage (handle : Handle) : Option Handle := do
  if handle.relay ≠ .relaying then none
  let interpreter ← handle.interpreter
  match interpreter.hostReceive with
  | (.waiting, _) => none
  | (.gone, _) => return handle.fault "interpreter exited"
  | (.message content, interpreter) =>
    let handle := { handle with interpreter := some interpreter }
    match handle.line.contextSend? (.message content) with
    | some line => return { handle with line }
    | none => return handle.returnRelay

/-! ## Waiting for readiness -/

/-- What a turn of waiting for readiness finds. -/
inductive Readiness where
  | ready
  /-- Something else was said, which is passed over. -/
  | ignored
  | failed (cause : WorkerError)
  deriving Repr, DecidableEq

/-- Takes the next event of a worker that is not ready yet; none when it has to
be waited for. -/
def turnReadiness (handle : Handle) : Option (Handle × Readiness) :=
  match handle.line.hostReceive with
  | (.waiting, _) => none
  | (.gone, _) => some (handle, .failed (.startup handle.language "worker thread exited"))
  | (.message (.fault reason), line) =>
    some ({ handle with line }, .failed (.startup handle.language reason))
  | (.message (.message .ready), line) => some ({ handle with line }, .ready)
  | (.message (.message _), line) => some ({ handle with line }, .ignored)

/-! ## Runs -/

/-- Where a run stands. -/
def phase? (handle : Handle) (number : Nat) : Option Phase :=
  handle.runs[number]?.map (·.phase)

/-- Sets where a run stands. -/
def setPhase (handle : Handle) (number : Nat) (phase : Phase) : Handle :=
  { handle with runs := handle.runs.modify number fun run => { run with phase } }

/-- The result of a run that is over. -/
def result? (handle : Handle) (number : Nat) : Option RunResult :=
  match handle.phase? number with
  | some (.finished result) => some result
  | _ => none

/-- A run is over and gives the lock up. -/
def finish (handle : Handle) (number : Nat) (output : Aggregator) : Handle :=
  { handle.setPhase number (.finished output.finish) with lock := handle.lock.leave number }

/-- The end of a run: whoever still waits for input waits in vain. -/
def conclude (desk : Desk) (handle : Handle) (number broker : Nat) (output : Aggregator) :
    Desk × Handle :=
  (desk.modify broker Broker.reset, handle.finish number output)

/-- The worker is lost during a run, which says so. -/
def crash (desk : Desk) (handle : Handle) (number broker : Nat) (output : Aggregator)
    (reason : String) : Desk × Handle :=
  conclude desk handle.markDead number broker (output.push .stderr s!"Worker crashed: {reason}")

/-- A run that waits for the lock looks whether it holds it, and if it does,
submits its code.  What is left of an earlier run is dropped first. -/
def turnQueued (desk : Desk) (handle : Handle) (number : Nat) (run : Run) :
    Option (Desk × Handle) :=
  if !handle.lock.isHeldBy number then none
  else
    let handle := { handle with line := handle.line.drain }
    let desk := desk.modify run.broker Broker.reset
    match if handle.isAlive then handle.request? (.run run.code) else none with
    | some handle => some (desk, handle.setPhase number (.running {} []))
    | none =>
      let output := Aggregator.push {} .stderr "Worker crashed: worker is not running"
      some (desk, handle.markDead.finish number output)

/-- A new run, up to the point where it has to wait: it asks for the lock. -/
def run (desk : Desk) (handle : Handle) (broker : Nat) (code : String) : Desk × Handle × Nat :=
  let number := handle.runs.length
  let run : Run := { code, broker }
  let handle := { handle with runs := handle.runs ++ [run], lock := handle.lock.enter number }
  let (desk, handle) := (turnQueued desk handle number run).getD (desk, handle)
  (desk, handle, number)

/-- A run takes in an event. -/
def receive (receiver : String → Option Nat) (desk : Desk) (handle : Handle)
    (number broker : Nat) (output : Aggregator) (pending : List Nat) : Event → Desk × Handle
  | .fault reason => crash desk handle number broker output reason
  | .message (.stdout data) =>
    (desk, handle.setPhase number (.running (output.push .stdout data) pending))
  | .message (.stderr data) =>
    (desk, handle.setPhase number (.running (output.push .stderr data) pending))
  | .message (.inputRequest prompt) =>
    let (desk, ticket) := desk.request receiver broker prompt
    (desk, handle.setPhase number (.running output (pending ++ [ticket])))
  | .message .done => conclude desk handle number broker output
  | .message (.error data) => conclude desk handle number broker (output.push .stderr data)
  | .message .ready => (desk, handle)

/-- A run passes the answer of its oldest request on, if there is one. -/
def answer (desk : Desk) (handle : Handle) (number broker : Nat) (output : Aggregator) :
    List Nat → Option (Desk × Handle)
  | [] => none
  | ticket :: rest => do
    let value ← desk.answer? broker ticket
    let desk := desk.modify broker (·.take ticket)
    match handle.request? (.inputResponse value) with
    | none => return crash desk handle number broker output "worker thread exited"
    | some handle => return (desk, handle.setPhase number (.running output rest))

/-- A run first looks whether it was cancelled, then for an event, and only then
for an answer to its oldest request. -/
def turnRunning (receiver : String → Option Nat) (cancelled : Bool) (desk : Desk)
    (handle : Handle) (number broker : Nat) (output : Aggregator) (pending : List Nat) :
    Option (Desk × Handle) :=
  if cancelled then some (conclude desk handle.terminate number broker output)
  else
    match handle.line.hostReceive with
    | (.message event, line) =>
      some (receive receiver desk { handle with line } number broker output pending event)
    | (.gone, _) => some (crash desk handle number broker output "worker thread exited")
    | (.waiting, _) => answer desk handle number broker output pending

/-- One turn of a run; none when it has to wait or is over. -/
def turn (receiver : String → Option Nat) (cancelled : Bool) (desk : Desk) (handle : Handle)
    (number : Nat) : Option (Desk × Handle) := do
  let run ← handle.runs[number]?
  match run.phase with
  | .queued => turnQueued desk handle number run
  | .running output pending =>
    turnRunning receiver cancelled desk handle number run.broker output pending
  | .finished _ | .abandoned => none

/-- The caller of a run goes away before the run is over.  The lock is given up,
and nothing else is put in order. -/
def abandon (desk : Desk) (handle : Handle) (number : Nat) : Desk × Handle :=
  match handle.runs[number]? with
  | none => (desk, handle)
  | some run =>
    let leave (handle : Handle) : Handle :=
      { handle.setPhase number .abandoned with lock := handle.lock.leave number }
    match run.phase with
    | .queued => (desk, leave handle)
    | .running _ pending => (desk.abandonAll run.broker pending, leave handle)
    | .finished _ | .abandoned => (desk, handle)

end Handle

end Polyglot.Worker
