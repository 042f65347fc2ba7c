import Polyglot.Worker.Handle

/-!
# Worker registries

A registry keeps one warm worker for each language.  Whoever asks for a worker
that is being started joins the others who wait for it, and all of them get the
same outcome.  A start goes on only while somebody who joined it looks.
-/

namespace Polyglot.Worker

/-- How far the start of a worker is. -/
inductive Progress where
  /-- Nobody has looked yet. -/
  | fresh
  /-- The worker of that number is waited for. -/
  | waiting (handle : Nat)
  | settled (outcome : Except WorkerError Nat)
  deriving Repr

/-- The start of a worker, which several callers can share. -/
structure Start where
  language : String
  /-- The number of the launcher. -/
  launcher : Nat
  /-- How long the worker may take to become ready. -/
  timeout : Duration
  progress : Progress := .fresh
  deriving Repr

/-- What a registry keeps for a language. -/
inductive Slot where
  /-- The start of that number is under way. -/
  | starting (start : Nat)
  /-- The worker of that number was handed out. -/
  | ready (handle : Nat)
  /-- The last start failed. -/
  | failed (cause : WorkerError)
  deriving Repr, DecidableEq

/-- What can be seen of a language's worker. -/
inductive Status where
  | absent
  | starting
  | ready
  | failed (cause : WorkerError)
  deriving Repr, DecidableEq

/-- A registry with the starts and the workers that came of it. -/
structure Registry where
  /-- What is kept, each language once. -/
  slots : List (String × Slot) := []
  /-- Every start, oldest first. -/
  starts : List Start := []
  /-- Every worker, oldest first. -/
  handles : List Handle := []
  deriving Repr

/-- What comes of asking for a worker, at once. -/
inductive Acquisition where
  /-- A worker that is alive. -/
  | held (handle : Nat)
  /-- The start of that number has to be waited for. -/
  | joined (start : Nat)
  deriving Repr, DecidableEq

namespace Registry

/-- What is kept for a language. -/
def slot? (registry : Registry) (language : String) : Option Slot :=
  (registry.slots.find? (·.1 = language)).map (·.2)

/-- Forgets what is kept for a language. -/
def forget (registry : Registry) (language : String) : Registry :=
  { registry with slots := registry.slots.filter (·.1 ≠ language) }

/-- Keeps something for a language in place of what was kept. -/
def setSlot (registry : Registry) (language : String) (slot : Slot) : Registry :=
  { registry.forget language with
    slots := (registry.forget language).slots ++ [(language, slot)] }

/-- Changes one of the workers. -/
def modifyHandle (registry : Registry) (number : Nat) (change : Handle → Handle) : Registry :=
  { registry with handles := registry.handles.modify number change }

/-- Whether the worker of a number is alive. -/
def isAlive (registry : Registry) (number : Nat) : Bool :=
  registry.handles[number]?.any Handle.isAlive

/-- Asks for the worker of a language: one that is alive is handed out, a start
that is under way is joined, and otherwise a new start begins. -/
def acquire (registry : Registry) (language : String) (launcher : Nat) (timeout : Duration) :
    Registry × Acquisition :=
  let begin : Registry × Acquisition :=
    let number := registry.starts.length
    ({ registry.setSlot language (.starting number) with
        starts := registry.starts ++ [{ language, launcher, timeout }] }, .joined number)
  match registry.slot? language with
  | some (.ready handle) => if registry.isAlive handle then (registry, .held handle) else begin
  | some (.starting number) => (registry, .joined number)
  | some (.failed _) | none => begin

/-- Sets how far a start is. -/
def setProgress (registry : Registry) (number : Nat) (progress : Progress) : Registry :=
  { registry with starts := registry.starts.modify number fun start => { start with progress } }

/-- A start ends without a worker, and the worker that it waited for is dropped. -/
def failStart (registry : Registry) (number handle : Nat) (cause : WorkerError) : Registry :=
  (registry.modifyHandle handle Handle.drop).setProgress number (.settled (.error cause))

/-- One turn of a start; none when it has to wait or is over. -/
def turnStart (registry : Registry) (number : Nat) : Option Registry := do
  let start ← registry.starts[number]?
  match start.progress with
  | .fresh =>
    let handle : Handle := { language := start.language, launcher := start.launcher }
    return { registry with handles := registry.handles ++ [handle] }.setProgress number
      (.waiting registry.handles.length)
  | .waiting handle =>
    let (worker, found) ← registry.handles[handle]? >>= Handle.turnReadiness
    let registry := registry.modifyHandle handle fun _ => worker
    match found with
    | .ready => return registry.setProgress number (.settled (.ok handle))
    | .ignored => return registry
    | .failed cause => return registry.failStart number handle cause
  | .settled _ => none

/-- The time that a start may take is over. -/
def expire (registry : Registry) (number : Nat) : Registry :=
  match registry.starts[number]? with
  | none => registry
  | some start =>
    match start.progress with
    | .waiting handle =>
      registry.failStart number handle (.readyTimeout start.language start.timeout)
    | .fresh | .settled _ => registry

/-- The outcome of a start that is over. -/
def outcome? (registry : Registry) (number : Nat) : Option (Except WorkerError Nat) := do
  let start ← registry.starts[number]?
  match start.progress with
  | .settled outcome => some outcome
  | .fresh | .waiting _ => none

/-- A caller who joined a start has its outcome.  The outcome is kept for the
language if the start is still what is kept there. -/
def collect (registry : Registry) (language : String) (number : Nat)
    (outcome : Except WorkerError Nat) : Registry :=
  if registry.slot? language = some (.starting number) then
    match outcome with
    | .ok handle => registry.setSlot language (.ready handle)
    | .error cause => registry.setSlot language (.failed cause)
  else registry

/-- What can be seen of a language's worker. -/
def status (registry : Registry) (language : String) : Status :=
  match registry.slot? language with
  | none => .absent
  | some (.starting _) => .starting
  | some (.ready handle) => if registry.isAlive handle then .ready else .absent
  | some (.failed cause) => .failed cause

/-- Stops the worker that a slot holds. -/
def stop (registry : Registry) : Slot → Registry
  | .ready handle => registry.modifyHandle handle Handle.terminate
  | .starting _ | .failed _ => registry

/-- Stops and forgets the worker of a language; says whether there was anything to
forget. -/
def shutdown (registry : Registry) (language : String) : Registry × Bool :=
  match registry.slot? language with
  | none => (registry, false)
  | some slot => ((registry.forget language).stop slot, true)

/-- Stops and forgets every worker. -/
def shutdownAll (registry : Registry) : Registry :=
  registry.slots.foldl (fun registry (_, slot) => registry.stop slot) { registry with slots := [] }

/-- The printed form of a registry: the languages for which it keeps something. -/
def toText (registry : Registry) : String :=
  let languages := Text.quotedList ((registry.slots.map (·.1)).mergeSort (· ≤ ·))
  s!"WorkerRegistry \x7b languages: {languages} \x7d"

end Registry

end Polyglot.Worker
