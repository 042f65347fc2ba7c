import Polyglot.Run.Purpose
import Polyglot.Worker.Registry

/-!
# Worker executors

A worker executor lends the worker of its language from a registry for one run at
a time.  An executor that was destroyed never asks the registry again.
-/

namespace Polyglot.Worker

/-- Where a call of an executor stands. -/
inductive CallPhase where
  /-- It has not asked for the worker yet. -/
  | begun
  /-- It waits for the start of that number. -/
  | acquiring (start : Nat)
  /-- Its code is the run of that number on the worker of that number. -/
  | running (handle run : Nat)
  /-- It is over; a call that ran code has a result. -/
  | finished (outcome : Except WorkerError (Option RunResult))
  /-- The caller has gone away. -/
  | abandoned
  deriving Repr

/-- A call of an executor. -/
structure Call where
  purpose : Purpose
  phase : CallPhase
  deriving Repr

/-- An executor for one language. -/
structure Executor where
  language : String
  /-- The number of the launcher of its interpreters. -/
  launcher : Nat
  /-- How long a worker may take to become ready. -/
  timeout : Duration
  /-- The number of its broker. -/
  broker : Nat
  /-- Whether it was destroyed. -/
  destroyed : Bool := false
  /-- Every call that was made, oldest first. -/
  calls : List Call := []
  deriving Repr

/-- An executor with what it works on: the desk of its broker and the registry of
its worker. -/
structure Place where
  desk : Desk
  registry : Registry
  executor : Executor
  deriving Repr

namespace Executor

/-- Where a call stands. -/
def phase? (executor : Executor) (number : Nat) : Option CallPhase :=
  executor.calls[number]?.map (·.phase)

/-- Sets where a call stands. -/
def setPhase (executor : Executor) (number : Nat) (phase : CallPhase) : Executor :=
  { executor with calls := executor.calls.modify number fun call => { call with phase } }

/-- The outcome of a call that is over. -/
def outcome? (executor : Executor) (number : Nat) :
    Option (Except WorkerError (Option RunResult)) :=
  match executor.phase? number with
  | some (.finished outcome) => some outcome
  | _ => none

/-- The printed form of an executor. -/
def toText (executor : Executor) : String :=
  let language := Text.quoted executor.language
  s!"WorkerExecutor \x7b language: {language}, destroyed: {executor.destroyed} \x7d"

end Executor

namespace Place

/-- Sets where a call stands. -/
def setPhase (place : Place) (number : Nat) (phase : CallPhase) : Place :=
  { place with executor := place.executor.setPhase number phase }

/-- A call has its worker: it is over, or its code becomes a run on the worker. -/
def proceed (place : Place) (number handle : Nat) : Purpose → Place
  | .start => place.setPhase number (.finished (.ok none))
  | .execute code =>
    match place.registry.handles[handle]? with
    | none => place.setPhase number (.finished (.error (.shutDown place.executor.language)))
    | some worker =>
      let (desk, worker, run) := worker.run place.desk place.executor.broker code
      { place with
        desk
        registry := place.registry.modifyHandle handle fun _ => worker }.setPhase number
        (.running handle run)

/-- A call that waits for a start lets it go on, and takes its outcome when it has
one. -/
def turnAcquiring (place : Place) (number start : Nat) (purpose : Purpose) : Option Place :=
  match place.registry.outcome? start with
  | none => do
    let registry ← place.registry.turnStart start
    return { place with registry }
  | some outcome =>
    let registry := place.registry.collect place.executor.language start outcome
    let place := { place with registry }
    match outcome with
    | .ok handle => some (place.proceed number handle purpose)
    | .error cause => some (place.setPhase number (.finished (.error cause)))

/-- A new call, up to the point where it has to wait.  A destroyed executor refuses
it; any other asks the registry for the worker. -/
def call (place : Place) (purpose : Purpose) : Place × Nat :=
  let executor := place.executor
  let number := executor.calls.length
  let withCall (registry : Registry) (phase : CallPhase) : Place :=
    { place with
      registry
      executor := { executor with calls := executor.calls ++ [⟨purpose, phase⟩] } }
  if executor.destroyed then
    (withCall place.registry (.finished (.error (.shutDown executor.language))), number)
  else
    match place.registry.acquire executor.language executor.launcher executor.timeout with
    | (registry, .held handle) => ((withCall registry .begun).proceed number handle purpose, number)
    | (registry, .joined start) =>
      let place := withCall registry (.acquiring start)
      ((place.turnAcquiring number start purpose).getD place, number)

/-- A call whose code runs lets the run go on, and takes its result when it has
one. -/
def turnRunning (receiver : String → Option Nat) (place : Place) (number handle run : Nat) :
    Option Place := do
  let worker ← place.registry.handles[handle]?
  match worker.result? run with
  | some result => return place.setPhase number (.finished (.ok (some result)))
  | none =>
    let (desk, worker) ← worker.turn receiver place.executor.destroyed place.desk run
    return { place with
      desk
      registry := place.registry.modifyHandle handle fun _ => worker }

/-- One turn of a call; none when it has to wait or is over. -/
def turn (receiver : String → Option Nat) (place : Place) (number : Nat) : Option Place := do
  let call ← place.executor.calls[number]?
  match call.phase with
  | .acquiring start => place.turnAcquiring number start call.purpose
  | .running handle run => place.turnRunning receiver number handle run
  | .begun | .finished _ | .abandoned => none

/-- The caller goes away before the call is over. -/
def abandon (place : Place) (number : Nat) : Place :=
  match place.executor.phase? number with
  | some (.acquiring _) => place.setPhase number .abandoned
  | some (.running handle run) =>
    match place.registry.handles[handle]? with
    | none => place.setPhase number .abandoned
    | some worker =>
      let (desk, worker) := worker.abandon place.desk run
      { place with
        desk
        registry := place.registry.modifyHandle handle fun _ => worker }.setPhase number .abandoned
  | some .begun | some (.finished _) | some .abandoned | none => place

/-- The executor is destroyed: its runs are cancelled, and the worker of its
language is stopped and forgotten. -/
def destroy (place : Place) : Place :=
  if place.executor.destroyed then place
  else
    { desk := place.desk.modify place.executor.broker Broker.reset
      registry := (place.registry.shutdown place.executor.language).1
      executor := { place.executor with destroyed := true } }

end Place

end Polyglot.Worker
