import Polyglot.Facade.Basic
import Polyglot.Host.Backend

/-!
# Sessions

A session drives executors, a facade and workers by name, as several tasks at a
time.  After every step everything goes on in turns until nothing can move.
Contexts, relays and launches go before tasks, so that a task finds everything
that was said to it before it looks; once a task looks, tasks go on until all of
them have to wait.  Child processes go last.
-/

namespace Polyglot

/-- What a task comes to. -/
inductive Conclusion where
  /-- The outcome of a call of an executor. -/
  | outcome (outcome : Outcome)
  /-- The report on a request to the facade. -/
  | report (report : Report)
  /-- The result of a run on a worker. -/
  | ran (result : RunResult)
  /-- Whether all callers got the same worker, and what that worker is. -/
  | acquired (same : Bool) (worker : Worker.Handle)
  /-- No worker was provided. -/
  | unprovided (cause : WorkerError)
  /-- The task was stopped. -/
  | aborted
  deriving Repr

/-- One of several callers who ask a registry for a worker. -/
inductive Caller where
  /-- It waits for the start of that number. -/
  | waiting (start : Nat)
  | answered (outcome : Except WorkerError Nat)
  deriving Repr

/-- What a task does. -/
inductive Work where
  /-- A call of an executor. -/
  | call (pending : Pending)
  /-- A request to the facade. -/
  | request (request : Request)
  /-- Callers who ask a registry for the worker of a language; `keep` is the name
  under which it is to be known. -/
  | acquire (registry : Nat) (language : String) (callers : List Caller) (keep : Option String)
  /-- A run of a guest on its worker. -/
  | run (guest run : Nat)
  | concluded (conclusion : Conclusion)
  deriving Repr

/-- A task; a name is that of the task which was given it last. -/
structure Task where
  name : Option String
  work : Work
  deriving Repr

/-- A task without a conclusion. -/
def Task.isOpen (task : Task) : Bool :=
  match task.work with
  | .concluded _ => false
  | _ => true

/-- A session. -/
structure Session where
  host : Host := {}
  facade : Option Facade := none
  executors : List (String × Executor) := []
  /-- The names of guests with their numbers. -/
  guests : List (String × Nat) := []
  tasks : List Task := []
  /-- Whether the last turn was a task's. -/
  polling : Bool := false
  deriving Repr

namespace Session

/-- The executor of a name. -/
def executor? (session : Session) (name : String) : Option Executor :=
  (session.executors.find? (·.1 = name)).map (·.2)

/-- The number of the guest of a name. -/
def guest? (session : Session) (name : String) : Option Nat :=
  (session.guests.find? (·.1 = name)).map (·.2)

/-- The name of the facade. -/
def facadeName : String := "facade"

/-- The number of the broker that input for a name goes to. -/
def broker? (session : Session) (name : String) : Option Nat :=
  if name = facadeName then session.facade.bind (Facade.broker? session.host)
  else
    match session.executor? name with
    | some executor => session.host.brokerOf? executor
    | none => session.guest? name >>= (session.host.guests[·]?) |>.map (·.broker)

/-! ## Workers that nobody has -/

/-- Whether a start is about a worker. -/
def concerns (registry : Worker.Registry) (handle start : Nat) : Bool :=
  match registry.starts[start]? with
  | some { progress := .waiting number, .. } => number = handle
  | some { progress := .settled (.ok number), .. } => number = handle
  | _ => false

/-- Whether a registry keeps a worker. -/
def keeps (registry : Worker.Registry) (handle : Nat) : Bool :=
  registry.slots.any fun (_, slot) =>
    match slot with
    | .ready number => number = handle
    | .starting start => concerns registry handle start
    | .failed _ => false

/-- Whether a worker executor uses a worker of its registry. -/
def uses (registry : Worker.Registry) (handle : Nat) (executor : Worker.Executor) : Bool :=
  executor.calls.any fun call =>
    match call.phase with
    | .acquiring start => concerns registry handle start
    | .running number _ => number = handle
    | .begun | .finished _ | .abandoned => false

/-- Whether a task uses a worker. -/
def taskUses (host : Host) (number handle : Nat) (registry : Worker.Registry) : Work → Bool
  | .acquire other _ callers _ =>
    other = number && callers.any fun
      | .waiting start => concerns registry handle start
      | .answered outcome => outcome.toOption = some handle
  | .run guest _ =>
    host.guests[guest]?.any fun guest => guest.registry = number && guest.handle = handle
  | .call _ | .request _ | .concluded _ => false

/-- Whether somebody has a worker. -/
def isHeld (session : Session) (number handle : Nat) (registry : Worker.Registry) : Bool :=
  keeps registry handle
    || session.host.workers.any (fun (other, executor) =>
      other = number && uses registry handle executor)
    || session.guests.any (fun (_, guest) =>
      session.host.guests[guest]?.any fun guest =>
        guest.registry = number && guest.handle = handle)
    || session.tasks.any fun task => taskUses session.host number handle registry task.work

/-- Drops the first worker that nobody has. -/
def turnOrphans (session : Session) : Option Session :=
  firstBelow? session.host.registries.length fun number => do
    let registry ← session.host.registries[number]?
    firstBelow? registry.handles.length fun handle => do
      let worker ← registry.handles[handle]?
      if !worker.line.hostOpen || session.isHeld number handle registry then none
      else
        return { session with
          host := session.host.modifyRegistry number (·.modifyHandle handle Worker.Handle.drop) }

/-! ## Tasks -/

/-- One turn of the caller of that number; none when it has to wait. -/
def turnCaller (registry : Worker.Registry) (language : String) (callers : List Caller)
    (number : Nat) : Option (Worker.Registry × List Caller) := do
  let .waiting start ← callers[number]? | none
  match registry.outcome? start with
  | some outcome =>
    return (registry.collect language start outcome, callers.set number (.answered outcome))
  | none => return (← registry.turnStart start, callers)

/-- The outcomes of all callers, once every one has its own. -/
def answers? (callers : List Caller) : Option (List (Except WorkerError Nat)) :=
  callers.mapM fun
    | .waiting _ => none
    | .answered outcome => some outcome

/-- What callers who all have their outcomes come to: the first failure, or the
worker of the first with the word whether all others got it too. -/
def concludeCallers (registry : Worker.Registry) (outcomes : List (Except WorkerError Nat)) :
    Conclusion × Option Nat :=
  match outcomes.mapM id with
  | .error cause => (.unprovided cause, none)
  | .ok handles =>
    match handles.head?, handles.head?.bind (registry.handles[·]?) with
    | some handle, some worker => (.acquired (handles.all (· = handle)) worker, some handle)
    | _, _ => (.aborted, none)

/-- Makes a worker known under a name, with a broker of its own. -/
def keep (session : Session) (name : String) (registry handle : Nat) (language : String) :
    Session :=
  let (desk, broker) := session.host.desk.addBroker 0 language
  let guests := session.host.guests ++ [{ registry, handle, broker }]
  { session with
    host := { session.host with desk, guests }
    guests := (name, session.host.guests.length) :: session.guests.filter (·.1 ≠ name) }

/-- Sets what the task of that number does. -/
def setWork (session : Session) (number : Nat) (work : Work) : Session :=
  { session with tasks := session.tasks.modify number fun task => { task with work } }

/-- One turn of callers who ask a registry for a worker. -/
def turnAcquire (session : Session) (number registry : Nat) (language : String)
    (callers : List Caller) (kept : Option String) : Option Session := do
  let found ← session.host.registries[registry]?
  match answers? callers with
  | some outcomes =>
    let (conclusion, handle) := concludeCallers found outcomes
    let session := session.setWork number (.concluded conclusion)
    match kept, handle with
    | some name, some handle => return session.keep name registry handle language
    | _, _ => return session
  | none =>
    let (after, callers) ← firstBelow? callers.length (turnCaller found language callers)
    return { session with host := session.host.modifyRegistry registry fun _ => after }.setWork
      number (.acquire registry language callers kept)

/-- One turn of a request to the facade. -/
def turnRequest (session : Session) (number : Nat) (request : Request) : Option Session := do
  let facade ← session.facade
  let (host, facade, request) ← facade.turn session.broker? session.host request
  let work : Work :=
    match request with
    | .finished report => .concluded (.report report)
    | request => .request request
  return { session with host, facade := some facade }.setWork number work

/-- One turn of the task of that number; none when it has to wait or is over. -/
def turnTask (session : Session) (number : Nat) : Option Session := do
  let task ← session.tasks[number]?
  match task.work with
  | .call pending =>
    match session.host.outcome? pending with
    | some outcome => return session.setWork number (.concluded (.outcome outcome))
    | none => return { session with host := ← session.host.turnCall session.broker? pending }
  | .request request => session.turnRequest number request
  | .acquire registry language callers kept =>
    session.turnAcquire number registry language callers kept
  | .run guest run =>
    match (session.host.guestHandle? guest).bind (·.result? run) with
    | some result => return session.setWork number (.concluded (.ran result))
    | none => return { session with host := ← session.host.turnGuest session.broker? guest run }
  | .concluded _ => none

/-- One turn of the task of that number if it is a request whose executor has just become
ready. -/
def turnReady (session : Session) (number : Nat) : Option Session := do
  let task ← session.tasks[number]?
  match task.work with
  | .request request =>
    if request.isReady session.host then session.turnRequest number request else none
  | _ => none

/-- One turn of the first task that does not have to wait. -/
def turnTasks (session : Session) : Option Session :=
  (firstBelow? session.tasks.length session.turnTask).map ({ · with polling := true })

/-- One turn of the session; none when nothing can move.  A request whose executor is
ready submits its code before anybody else moves. -/
def turn (session : Session) : Option Session :=
  firstBelow? session.tasks.length session.turnReady
    <|> (if session.polling then session.turnTasks else none)
    <|> (session.host.turnBackends.map fun host => { session with host, polling := false })
    <|> session.turnOrphans
    <|> session.turnTasks
    <|> session.host.turnChildren.map fun host => { session with host }

/-- Goes on in turns until nothing can move, for at most so many turns. -/
def settle : (turns : Nat) → Session → Session
  | 0, session => session
  | turns + 1, session =>
    match session.turn with
    | none => session
    | some session => settle turns session

/-! ## Time -/

/-- The starts that somebody waits for, each with its registry and the time that it
may take. -/
def deadlines (session : Session) : List (Duration × Nat × Nat) :=
  (List.range session.host.registries.length).flatMap fun number =>
    match session.host.registries[number]? with
    | none => []
    | some registry =>
      (List.range registry.starts.length).filterMap fun start =>
        registry.starts[start]?.bind fun found =>
          match found.progress with
          | .waiting _ => some (found.timeout, number, start)
          | .fresh | .settled _ => none

/-- Lets time pass until the first start has taken all the time it may take. -/
def expire (session : Session) : Option Session := do
  let (_, number, start) ←
    (session.deadlines.mergeSort fun left right => left.1.le right.1).head?
  return { session with host := session.host.modifyRegistry number (·.expire start) }

/-! ## Steps -/

/-- The task of a name. -/
def task? (session : Session) (name : String) : Option Task :=
  session.tasks.find? (·.name = some name)

/-- Adds a task; a task that had its name has none any more, but goes on. -/
def spawn (session : Session) (name : String) (work : Work) : Session :=
  let forgotten := session.tasks.map fun task =>
    if task.name = some name then { task with name := none } else task
  { session with tasks := forgotten ++ [⟨some name, work⟩] }

/-- Starts a call of an executor. -/
def call (session : Session) (name : String) (executor : Executor) (purpose : Purpose) :
    Session :=
  let (host, pending) := session.host.call executor purpose
  { session with host }.spawn name (.call pending)

/-- Starts a request to the facade. -/
def request (session : Session) (name : String) (request : RunRequest) : Session :=
  match session.facade with
  | none => session
  | some facade =>
    let (host, facade, request) := facade.execute session.host request
    let work : Work :=
      match request with
      | .finished report => .concluded (.report report)
      | request => .request request
    { session with host, facade := some facade }.spawn name work

/-- Starts a number of callers who ask a registry for the worker of a language. -/
def acquire (session : Session) (name : String) (registry launcher : Nat) (language : String)
    (timeout : Duration) (count : Nat) (keep : Option String) : Session :=
  let step (state : Session × List Caller) (_ : Nat) : Session × List Caller :=
    match state.1.host.registries[registry]? with
    | none => state
    | some found =>
      let (after, acquisition) := found.acquire language launcher timeout
      let caller : Caller :=
        match acquisition with
        | .held handle => .answered (.ok handle)
        | .joined start => .waiting start
      let host := state.1.host.modifyRegistry registry fun _ => after
      ({ state.1 with host }, state.2 ++ [caller])
  let (session, callers) := (List.range count).foldl step (session, [])
  session.spawn name (.acquire registry language callers keep)

/-- Starts a run of a guest on its worker. -/
def runGuest (session : Session) (name : String) (number : Nat) (code : String) : Session :=
  match session.host.guests[number]? with
  | none => session
  | some guest =>
    let (host, run) := session.host.callGuest guest code
    { session with host }.spawn name (.run number run)

/-- Stops what a task does. -/
def stop (session : Session) : Work → Session
  | .call pending => { session with host := session.host.abandon pending }
  | .request request =>
    match session.facade with
    | none => session
    | some facade =>
      let (host, facade, _) := facade.abandon session.host request
      { session with host, facade := some facade }
  | .run number run =>
    match session.host.guests[number]? with
    | none => session
    | some guest =>
      let (host, ()) := session.host.changeGuest guest () fun desk worker =>
        let (desk, worker) := worker.abandon desk run
        (desk, worker, ())
      { session with host }
  | .acquire _ _ _ _ | .concluded _ => session

/-- Stops the task of a name, unless it is over. -/
def abort (session : Session) (name : String) : Session :=
  match session.tasks.findIdx? (·.name = some name) with
  | none => session
  | some number =>
    match session.tasks[number]? with
    | none => session
    | some task =>
      if task.isOpen then (session.stop task.work).setWork number (.concluded .aborted)
      else session

/-- Gives a compile executor a sandbox to run code in, or takes it away; says
whether there was one. -/
def setDelegate (session : Session) (name : String) (delegate : Option Nat) : Session × Bool :=
  match session.executor? name with
  | some (.compiled executor) =>
    let changed := Executor.compiled { executor with delegate }
    ({ session with
        executors := session.executors.map fun (other, executor) =>
          if other = name then (other, changed) else (other, executor) },
      executor.delegate.isSome)
  | _ => (session, false)

/-- Says whether the runs of a guest are cancelled; tells what was said before. -/
def setCancelled (session : Session) (number : Nat) (cancelled : Bool) : Session × Bool :=
  ({ session with
      host := { session.host with
        guests := session.host.guests.modify number fun guest => { guest with cancelled } } },
    session.host.guests[number]?.any (·.cancelled))

/-- Stops the worker of a guest. -/
def terminate (session : Session) (number : Nat) : Session :=
  match session.host.guests[number]? with
  | none => session
  | some guest =>
    { session with
      host := session.host.modifyRegistry guest.registry
        (·.modifyHandle guest.handle Worker.Handle.terminate) }

/-- Where the task of a name stands: it goes on, it has come to a conclusion, which
is told only once, or there is no such task. -/
inductive Standing where
  | running
  | concluded (conclusion : Conclusion)
  | unknown
  deriving Repr

/-- Asks for the conclusion of the task of a name. -/
def await (session : Session) (name : String) : Session × Standing :=
  match session.task? name with
  | none => (session, .unknown)
  | some task =>
    match task.work with
    | .concluded conclusion =>
      ({ session with tasks := session.tasks.filter (·.name ≠ some name) },
        .concluded conclusion)
    | _ => (session, .running)

/-- Goes on until the task of a name is over, and lets time pass whenever nothing
can move, at most so many times and with so many turns in between. -/
def finishWithin : (times turns : Nat) → Session → (name : String) → Session
  | 0, _, session, _ => session
  | times + 1, turns, session, name =>
    let session := session.settle turns
    if (session.task? name).any Task.isOpen then
      match session.expire with
      | none => session
      | some session => finishWithin times turns session name
    else session

/-- Goes on until the task of a name is over or nothing will ever move again. -/
def finish (session : Session) (turns : Nat) (name : String) : Session :=
  finishWithin (session.deadlines.length + 2) turns session name

end Session

end Polyglot
