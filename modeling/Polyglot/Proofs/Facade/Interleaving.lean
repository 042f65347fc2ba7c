import Polyglot.Facade.Basic
import Polyglot.Host.Backend
import Polyglot.Proofs.Channel.Context

/-!
# Interleavings at a facade

Requests to a facade are futures: they are made, polled, and dropped at any time.  In
between, input is provided, callbacks are registered, the facade is destroyed, and
whatever stands behind the executors moves: launches end, contexts act, relays pass
messages on, starts take too long.
-/

namespace Polyglot

/-- Whether a request is in flight. -/
def Request.isInFlight : Request → Bool
  | .starting _ _ _ | .executing _ _ => true
  | .finished _ | .abandoned => false

/-- The executor of a request in flight. -/
def Request.executor? : Request → Option Executor
  | .starting executor _ _ | .executing executor _ => some executor
  | .finished _ | .abandoned => none

theorem Request.isInFlight_iff {request : Request} :
    request.isInFlight = true ↔ ∃ executor, request.executor? = some executor := by
  cases request <;> simp [isInFlight, executor?]

/-- The executor of a request in flight, and the call of it that goes on. -/
def Request.standing? : Request → Option (Executor × Pending)
  | .starting executor _ pending | .executing executor pending => some (executor, pending)
  | .finished _ | .abandoned => none

theorem Request.executor?_of_standing? {request : Request} {executor : Executor}
    {pending : Pending} (isStanding : request.standing? = some (executor, pending)) :
    request.isInFlight = true ∧ request.executor? = some executor := by
  cases request with
  | starting same code call => cases isStanding; exact ⟨rfl, rfl⟩
  | executing same call => cases isStanding; exact ⟨rfl, rfl⟩
  | finished report => contradiction
  | abandoned => contradiction

theorem Request.exists_standing {request : Request} (inFlight : request.isInFlight = true) :
    ∃ executor pending, request.standing? = some (executor, pending) := by
  cases request with
  | starting executor code pending => exact ⟨executor, pending, rfl⟩
  | executing executor pending => exact ⟨executor, pending, rfl⟩
  | finished report => contradiction
  | abandoned => contradiction

namespace Facade

/-- What became of a request that somebody made. -/
inductive Future where
  /-- It was not polled yet. -/
  | created (asked : RunRequest)
  /-- It was polled, and stands there. -/
  | polled (asked : RunRequest) (request : Request)
  /-- It was dropped, and had that executor if it was in flight. -/
  | dropped (executor : Option Executor)

/-- Whether the request of a future is in flight. -/
def Future.isInFlight : Future → Bool
  | .polled _ request => request.isInFlight
  | .created _ | .dropped _ => false

/-- A host, a facade over it, and every request that was made. -/
structure World where
  host : Host
  facade : Facade
  futures : List Future := []

/-- Something that happens in a world. -/
inductive Event where
  /-- Somebody makes a request. -/
  | make (asked : RunRequest)
  /-- A request is polled. -/
  | poll (receiver : String → Option Nat) (future : Nat)
  /-- A request is dropped. -/
  | drop (future : Nat)
  | provide (value : String)
  | onInput (callback : Callback)
  | destroy
  /-- A launch that somebody waits for ends. -/
  | launched (launcher : Nat) (launching : Launching) (awaiting : Awaiting)
  /-- A context of a sandbox executor does something at its end of the link. -/
  | context (executor context : Nat) (act : Link.Act SandboxMessage)
  /-- The interpreter of a worker does something at its end of the link. -/
  | interpreter (registry handle : Nat) (act : Link.Act WorkerMessage)
  /-- A relay takes the next request of its handle. -/
  | request (registry handle : Nat)
  /-- A relay takes the next message of its interpreter. -/
  | message (registry handle : Nat)
  /-- A start has taken all the time it may take. -/
  | expire (registry start : Nat)
  /-- Nobody has a worker any more. -/
  | release (registry handle : Nat)

/-- The request that an event is about. -/
def Event.future? : Event → Option Nat
  | .poll _ future | .drop future => some future
  | _ => none

namespace World

/-- A facade that nobody has made a request to, with a registry of its own. -/
def fresh (host : Host) (facade : Facade) : World :=
  ⟨{ host with registries := host.registries ++ [{}] },
    { facade with registry := host.registries.length, running := false, armed := none }, []⟩

/-- Changes one of the workers of a registry. -/
def changeHandle (host : Host) (registry handle : Nat) (change : Worker.Handle → Worker.Handle) :
    Host :=
  host.modifyRegistry registry (·.modifyHandle handle change)

/-- What stands behind the executors moves. -/
def move (host : Host) : Event → Host
  | .launched launcher launching awaiting =>
    if (host.launcherOf? awaiting).isSome then host.deliver launcher launching awaiting else host
  | .context executor context act =>
    { host with
      sandboxes := host.sandboxes.modify executor fun (launcher, sandbox) =>
        (launcher, { sandbox with contexts := sandbox.contexts.modify context (·.act act) }) }
  | .interpreter registry handle act =>
    changeHandle host registry handle fun worker =>
      { worker with interpreter := worker.interpreter.map (·.act act) }
  | .request registry handle =>
    changeHandle host registry handle fun worker => worker.turnRequest.getD worker
  | .message registry handle =>
    changeHandle host registry handle fun worker => worker.turnMessage.getD worker
  | .expire registry start => host.modifyRegistry registry (·.expire start)
  | .release registry handle => changeHandle host registry handle Worker.Handle.drop
  | _ => host

/-- A request is polled: the first time it is looked at by the facade, and then it takes
turns. -/
def poll (world : World) (receiver : String → Option Nat) (number : Nat) : World :=
  match world.futures[number]? with
  | some (.created asked) =>
    let (host, facade, request) := world.facade.execute world.host asked
    ⟨host, facade, world.futures.set number (.polled asked request)⟩
  | some (.polled asked request) =>
    match world.facade.turn receiver world.host request with
    | none => world
    | some (host, facade, request) =>
      ⟨host, facade, world.futures.set number (.polled asked request)⟩
  | some (.dropped _) | none => world

/-- A request is dropped, unless it is over. -/
def drop (world : World) (number : Nat) : World :=
  match world.futures[number]? with
  | some (.created _) => { world with futures := world.futures.set number (.dropped none) }
  | some (.polled _ request) =>
    match request.executor? with
    | none => world
    | some executor =>
      let (host, facade, _) := world.facade.abandon world.host request
      ⟨host, facade, world.futures.set number (.dropped (some executor))⟩
  | some (.dropped _) | none => world

/-- The world after an event. -/
def step (world : World) : Event → World
  | .make asked => { world with futures := world.futures ++ [.created asked] }
  | .poll receiver number => world.poll receiver number
  | .drop number => world.drop number
  | .provide value =>
    let broker := world.facade.broker? world.host
    { world with host := (world.host.provide broker value).1 }
  | .onInput callback =>
    let desk := world.host.desk.setHook world.facade.hook (some callback)
    { world with host := { world.host with desk } }
  | .destroy => { world with host := world.facade.destroy world.host }
  | event => { world with host := move world.host event }

/-- The world after several events. -/
def run (world : World) (events : List Event) : World := events.foldl step world

@[simp] theorem run_nil (world : World) : world.run [] = world := rfl

@[simp] theorem run_cons (world : World) (event : Event) (events : List Event) :
    world.run (event :: events) = (world.step event).run events := rfl

/-- A request is in flight: its future has begun and has not come to its end. -/
def InFlight (world : World) (number : Nat) : Prop :=
  ∃ future, world.futures[number]? = some future ∧ future.isInFlight = true

end World

end Facade

end Polyglot
