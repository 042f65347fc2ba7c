import Polyglot.Channel.Link
import Polyglot.Channel.Lock
import Polyglot.Failure
import Polyglot.Input.Hook
import Polyglot.Run.Aggregator
import Polyglot.Run.Purpose
import Polyglot.Scan.Submission
import Polyglot.Text.Quoted

/-!
# Sandbox executors

A sandbox executor has at most one isolated context.  The context is launched
when it is first needed, serves one run after the other, and is let go when the
executor is destroyed or the context is lost.  Calls queue for the lock on the
context, and every call goes on in turns: a turn is what it can do before it has
to wait for somebody else.
-/

namespace Polyglot.Sandbox

/-- How far an executor is. -/
inductive Lifecycle where
  | unstarted
  | initializing
  | ready
  | executing
  | destroyed
  deriving Repr, DecidableEq

/-- The name of a stage. -/
def Lifecycle.name : Lifecycle → String
  | .unstarted => "Unstarted"
  | .initializing => "Initializing"
  | .ready => "Ready"
  | .executing => "Executing"
  | .destroyed => "Destroyed"

/-- Where a call stands. -/
inductive Phase where
  /-- It waits for the lock. -/
  | queued
  /-- It holds the lock and waits for a context to be launched. -/
  | launching
  /-- It holds the lock, and its code runs; `pending` are the tickets of the
  input requests that have not been answered to the context, oldest first. -/
  | running (output : Aggregator) (pending : List Nat)
  /-- It is over; a call that ran code has a result. -/
  | finished (outcome : Except SandboxError (Option RunResult))
  /-- The caller has gone away. -/
  | abandoned
  deriving Repr

/-- A call of an executor. -/
structure Call where
  purpose : Purpose
  phase : Phase
  deriving Repr

/-- The host's link to an isolated context. -/
abbrev Context := Link HostMessage SandboxMessage

/-- An executor for one language. -/
structure Executor where
  language : String
  /-- The number of its broker. -/
  broker : Nat
  lifecycle : Lifecycle := .unstarted
  /-- The lock on the context. -/
  lock : Lock := {}
  /-- Every context that was launched for it, oldest first. -/
  contexts : List Context := []
  /-- The number of the context that it has. -/
  slot : Option Nat := none
  /-- Every call that was made, oldest first. -/
  calls : List Call := []
  deriving Repr

/-- How a run comes to its end. -/
inductive Ending where
  /-- The context said that the code has run. -/
  | completed
  /-- The context went away. -/
  | contextLost
  /-- The executor was destroyed. -/
  | destroyed
  deriving Repr, DecidableEq

namespace Executor

/-- Whether the executor was destroyed. -/
def isDestroyed (executor : Executor) : Bool := executor.lifecycle = .destroyed

/-- Goes to a stage, unless the executor was destroyed. -/
def transition (executor : Executor) (stage : Lifecycle) : Executor :=
  if executor.isDestroyed then executor else { executor with lifecycle := stage }

/-- The context that the executor has. -/
def context? (executor : Executor) : Option Context :=
  executor.slot >>= (executor.contexts[·]?)

/-- Whether the executor has a context that is still there. -/
def hasOpenContext (executor : Executor) : Bool :=
  executor.context?.any (!·.isClosed)

/-- Changes the link of the context that the executor has. -/
def setContext (executor : Executor) (context : Context) : Executor :=
  match executor.slot with
  | none => executor
  | some number => { executor with contexts := executor.contexts.set number context }

/-- Lets the context go. -/
def release (executor : Executor) : Executor :=
  match executor.slot with
  | none => executor
  | some number =>
    { executor with contexts := executor.contexts.modify number Link.dropHost, slot := none }

/-- Takes a context that was just launched, in place of the one before. -/
def adopt (executor : Executor) : Executor :=
  let executor := executor.release
  { executor with
    contexts := executor.contexts ++ [{}]
    slot := some executor.contexts.length }

/-- Sets where a call stands. -/
def setPhase (executor : Executor) (number : Nat) (phase : Phase) : Executor :=
  { executor with calls := executor.calls.modify number fun call => { call with phase } }

/-- A call is over and gives the lock up. -/
def finish (executor : Executor) (number : Nat)
    (outcome : Except SandboxError (Option RunResult)) : Executor :=
  { executor.setPhase number (.finished outcome) with lock := executor.lock.leave number }

/-- Where a call stands. -/
def phase? (executor : Executor) (number : Nat) : Option Phase :=
  executor.calls[number]?.map (·.phase)

/-- The outcome of a call that is over. -/
def outcome? (executor : Executor) (number : Nat) :
    Option (Except SandboxError (Option RunResult)) :=
  match executor.phase? number with
  | some (.finished outcome) => some outcome
  | _ => none

/-- The end of a run: whoever still waits for input waits in vain, and a context
that cannot be used again is let go. -/
def conclude (desk : Desk) (executor : Executor) (number : Nat) (output : Aggregator)
    (ending : Ending) : Desk × Executor :=
  let desk := desk.modify executor.broker Broker.reset
  match ending with
  | .completed => (desk, (executor.transition .ready).finish number (.ok (some output.finish)))
  | .contextLost =>
    let output := output.push .stderr "Sandbox context terminated unexpectedly"
    (desk, (executor.release.transition .unstarted).finish number (.ok (some output.finish)))
  | .destroyed => (desk, executor.release.finish number (.ok (some output.finish)))

/-- Submits the code of a call to the context.  What is left of an earlier run is
dropped first. -/
def submit (desk : Desk) (executor : Executor) (number : Nat) (code : String) :
    Desk × Executor :=
  match executor.context? with
  | none => (desk, executor.finish number (.error .destroyed))
  | some context =>
    let desk := desk.modify executor.broker Broker.reset
    let executor := (executor.setContext context.drain).transition .executing
    match context.drain.hostSend? (.executeCode (Scan.prepareForSandbox code)) with
    | none => conclude desk executor number {} .contextLost
    | some context => (desk, (executor.setContext context).setPhase number (.running {} []))

/-- What a call does once it has the lock and a context. -/
def proceed (desk : Desk) (executor : Executor) (number : Nat) : Purpose → Desk × Executor
  | .start => (desk, executor.finish number (.ok none))
  | .execute code => submit desk executor number code

/-- A call that waits for the lock looks whether it holds it, and if it does, asks
for a context unless there is one. -/
def turnQueued (desk : Desk) (executor : Executor) (number : Nat) (purpose : Purpose) :
    Option (Desk × Executor) :=
  if !executor.lock.isHeldBy number then none
  else if executor.isDestroyed then some (desk, executor.finish number (.error .destroyed))
  else if executor.hasOpenContext then some (proceed desk executor number purpose)
  else some (desk, (executor.transition .initializing).setPhase number .launching)

/-- A new call, up to the point where it has to wait.  Having a context is over at
once if the executor has one or was destroyed; every other call asks for the
lock. -/
def call (desk : Desk) (executor : Executor) (purpose : Purpose) : Desk × Executor × Nat :=
  let number := executor.calls.length
  let withCall (phase : Phase) : Executor :=
    { executor with calls := executor.calls ++ [⟨purpose, phase⟩] }
  match purpose, executor.lifecycle with
  | .start, .destroyed => (desk, withCall (.finished (.error .destroyed)), number)
  | .start, .ready | .start, .executing => (desk, withCall (.finished (.ok none)), number)
  | _, _ =>
    let executor := { withCall .queued with lock := executor.lock.enter number }
    let (desk, executor) := (turnQueued desk executor number purpose).getD (desk, executor)
    (desk, executor, number)

/-- The launch that a call waits for has an outcome. -/
def launched (desk : Desk) (executor : Executor) (number : Nat) (purpose : Purpose) :
    Except TransportError Unit → Desk × Executor
  | .ok () => proceed desk (executor.adopt.transition .ready) number purpose
  | .error cause =>
    (desk, (executor.release.transition .unstarted).finish number (.error (.launch cause)))

/-- A run takes in a message of its context. -/
def receive (receiver : String → Option Nat) (desk : Desk) (executor : Executor) (number : Nat)
    (output : Aggregator) (pending : List Nat) : SandboxMessage → Desk × Executor
  | .stdout data =>
    (desk, executor.setPhase number (.running (output.push .stdout data) pending))
  | .stderr data =>
    (desk, executor.setPhase number (.running (output.push .stderr data) pending))
  | .inputRequest message =>
    let (desk, ticket) := desk.request receiver executor.broker message
    (desk, executor.setPhase number (.running output (pending ++ [ticket])))
  | .executionComplete => conclude desk executor number output .completed

/-- A run passes the answer of its oldest request on, if there is one. -/
def answer (desk : Desk) (executor : Executor) (number : Nat) (context : Context)
    (output : Aggregator) : List Nat → Option (Desk × Executor)
  | [] => none
  | ticket :: rest => do
    let value ← desk.answer? executor.broker ticket
    let desk := desk.modify executor.broker (·.take ticket)
    match context.hostSend? (.inputResponse value) with
    | none => return conclude desk executor number output .contextLost
    | some context =>
      return (desk, (executor.setContext context).setPhase number (.running output rest))

/-- A run first looks whether the executor was destroyed, then for a message of
the context, and only then for an answer to its oldest request. -/
def turnRunning (receiver : String → Option Nat) (desk : Desk) (executor : Executor)
    (number : Nat) (output : Aggregator) (pending : List Nat) : Option (Desk × Executor) :=
  if executor.isDestroyed then some (conclude desk executor number output .destroyed)
  else
    match executor.context? with
    | none => some (conclude desk executor number output .contextLost)
    | some context =>
      match context.hostReceive with
      | (.message message, context) =>
        some (receive receiver desk (executor.setContext context) number output pending message)
      | (.gone, _) => some (conclude desk executor number output .contextLost)
      | (.waiting, _) => answer desk executor number context output pending

/-- One turn of a call; none when it has to wait or is over. -/
def turn (receiver : String → Option Nat) (desk : Desk) (executor : Executor) (number : Nat) :
    Option (Desk × Executor) := do
  let call ← executor.calls[number]?
  match call.phase with
  | .queued => turnQueued desk executor number call.purpose
  | .running output pending => turnRunning receiver desk executor number output pending
  | .launching | .finished _ | .abandoned => none

/-- Whether a call waits for a context to be launched. -/
def isLaunching (executor : Executor) (number : Nat) : Bool :=
  match executor.phase? number with
  | some .launching => true
  | _ => false

/-- The tickets that a call holds. -/
def heldTickets (executor : Executor) (number : Nat) : List Nat :=
  match executor.phase? number with
  | some (.running _ pending) => pending
  | _ => []

/-- The caller goes away before the call is over.  The lock is given up, and
nothing else is put in order. -/
def abandon (desk : Desk) (executor : Executor) (number : Nat) : Desk × Executor :=
  if (executor.outcome? number).isSome then (desk, executor)
  else
    (desk.abandonAll executor.broker (executor.heldTickets number),
      { executor.setPhase number .abandoned with lock := executor.lock.leave number })

/-- The executor is destroyed: nothing is run any more.  The context is let go at
once unless a call holds the lock on it; a run lets it go itself. -/
def destroy (desk : Desk) (executor : Executor) : Desk × Executor :=
  if executor.isDestroyed then (desk, executor)
  else
    let executor := { executor with lifecycle := .destroyed }
    (desk.modify executor.broker Broker.reset,
      if executor.lock.isFree then executor.release else executor)

/-- The printed form of an executor. -/
def toText (executor : Executor) : String :=
  let language := Text.quoted executor.language
  s!"SandboxExecutor \x7b language: {language}, state: {executor.lifecycle.name} \x7d"

end Executor

end Polyglot.Sandbox
