import Polyglot.Host.Basic
import Polyglot.Language

/-!
# Executors of a host

An executor is of one of four kinds, and a call of it goes on in the way of its
kind.  Input reaches the broker of the executor that runs the code; a toolchain
has none.
-/

namespace Polyglot

/-- An executor of a host. -/
inductive Executor where
  /-- The sandbox executor of that number. -/
  | sandboxed (number : Nat)
  /-- The worker executor of that number. -/
  | worker (number : Nat)
  | compiled (executor : Compile.Executor)
  /-- The toolchain executor of that number. -/
  | toolchain (number : Nat)
  deriving Repr, DecidableEq

/-- The kind of an executor. -/
def Executor.backend : Executor → Backend
  | .sandboxed _ => .sandbox
  | .worker _ => .worker
  | .compiled _ => .transpile
  | .toolchain _ => .toolchain

/-- What comes of a call; one that ran code has a result. -/
abbrev Outcome := Except ExecutorError (Option RunResult)

/-- A call of an executor: a call of one kind of executor by its number, or the
outcome that was known at once. -/
inductive Pending where
  | sandbox (executor call : Nat)
  | worker (executor call : Nat)
  | toolchain (executor call : Nat)
  | finished (outcome : Outcome)
  deriving Repr

namespace Host

/-! ## Sandbox executors -/

/-- A new call of a sandbox executor. -/
def callSandbox (host : Host) (number : Nat) (purpose : Purpose) : Host × Pending :=
  match host.sandboxes[number]? with
  | none => (host, .finished (.error (.sandbox .destroyed)))
  | some (_, sandbox) =>
    let (desk, sandbox, call) := sandbox.call host.desk purpose
    ({ host.setSandbox number sandbox with desk }, .sandbox number call)

/-- Destroys a sandbox executor. -/
def destroySandbox (host : Host) (number : Nat) : Host :=
  match host.sandboxes[number]? with
  | none => host
  | some (_, sandbox) =>
    let (desk, sandbox) := sandbox.destroy host.desk
    { host.setSandbox number sandbox with desk }

/-- Nobody has a sandbox executor any more. -/
def dropSandbox (host : Host) (number : Nat) : Host :=
  match host.sandboxes[number]? with
  | none => host
  | some (_, sandbox) => host.setSandbox number sandbox.release

/-! ## Worker executors -/

/-- A worker executor with what it works on. -/
def workerPlace? (host : Host) (number : Nat) : Option (Nat × Worker.Place) := do
  let (registry, executor) ← host.workers[number]?
  return (registry, ⟨host.desk, ← host.registries[registry]?, executor⟩)

/-- Puts a worker executor and what it works on back. -/
def setWorkerPlace (host : Host) (number registry : Nat) (place : Worker.Place) : Host :=
  { host.modifyRegistry registry fun _ => place.registry with
    desk := place.desk
    workers := host.workers.set number (registry, place.executor) }

/-- A new call of a worker executor. -/
def callWorker (host : Host) (number : Nat) (purpose : Purpose) : Host × Pending :=
  match host.workerPlace? number with
  | none => (host, .finished (.error (.worker (.shutDown ""))))
  | some (registry, place) =>
    let (place, call) := place.call purpose
    (host.setWorkerPlace number registry place, .worker number call)

/-- Changes a worker executor and what it works on. -/
def changeWorker (host : Host) (number : Nat) (change : Worker.Place → Worker.Place) : Host :=
  match host.workerPlace? number with
  | none => host
  | some (registry, place) => host.setWorkerPlace number registry (change place)

/-! ## Toolchain executors -/

/-- A new call of a toolchain executor. -/
def callToolchain (host : Host) (number : Nat) (purpose : Purpose) : Host × Pending :=
  match do
    let executor ← host.toolchainExecutors[number]?
    return (executor, ← host.toolchains[executor.toolchain]?) with
  | none => (host, .finished (.error (.toolchain .notInitialized)))
  | some (executor, toolchain) =>
    let ((log, toolchain), executor, call) :=
      executor.call (ToolchainBackend.interface host.site) (host.log, toolchain) purpose
    ({ host with
        log
        toolchains := host.toolchains.set executor.toolchain toolchain
        toolchainExecutors := host.toolchainExecutors.set number executor },
      .toolchain number call)

/-! ## Compile executors -/

/-- Gives source text to the compiler of that number. -/
def compile (number : Nat) (host : Host) (source : String) (options : CompilerOptions) :
    Host × Compilation :=
  match host.compilers[number]? with
  | none => (host, .failed [])
  | some compiler =>
    let ((log, compiler), compilation) :=
      Compiler.compile host.site (host.log, compiler) source options
    ({ host with log, compilers := host.compilers.set number compiler }, compilation)

/-- A new call of a compile executor. -/
def callCompiled (host : Host) (executor : Compile.Executor) : Purpose → Host × Pending
  | .start =>
    match executor.delegate with
    | none => (host, .finished (.ok none))
    | some delegate => host.callSandbox delegate .start
  | .execute code =>
    match executor.judge (compile executor.compiler) host code with
    | (host, .result result) => (host, .finished (.ok (some result)))
    | (host, .run code) => host.callSandbox (executor.delegate.getD 0) (.execute code)

/-! ## Executors of any kind -/

/-- A new call, up to the point where it has to wait. -/
def call (host : Host) (executor : Executor) (purpose : Purpose) : Host × Pending :=
  match executor with
  | .sandboxed number => host.callSandbox number purpose
  | .worker number => host.callWorker number purpose
  | .compiled executor => host.callCompiled executor purpose
  | .toolchain number => host.callToolchain number purpose

/-- One turn of a call; none when it has to wait or is over. -/
def turnCall (receiver : String → Option Nat) (host : Host) : Pending → Option Host
  | .sandbox number call => do
    let (_, sandbox) ← host.sandboxes[number]?
    let (desk, sandbox) ← sandbox.turn receiver host.desk call
    return { host.setSandbox number sandbox with desk }
  | .worker number call => do
    let (registry, place) ← host.workerPlace? number
    let place ← place.turn receiver call
    return host.setWorkerPlace number registry place
  | .toolchain number call => do
    let executor ← host.toolchainExecutors[number]?
    let executor ← executor.turn call
    return { host with toolchainExecutors := host.toolchainExecutors.set number executor }
  | .finished _ => none

/-- The outcome of a call that is over. -/
def outcome? (host : Host) : Pending → Option Outcome
  | .sandbox number call => do
    let (_, sandbox) ← host.sandboxes[number]?
    return (← sandbox.outcome? call).mapError .sandbox
  | .worker number call => do
    let (_, executor) ← host.workers[number]?
    return (← executor.outcome? call).mapError .worker
  | .toolchain number call => do
    let executor ← host.toolchainExecutors[number]?
    return (← executor.outcome? call).mapError .toolchain
  | .finished outcome => some outcome

/-- The caller goes away before a call is over. -/
def abandon (host : Host) : Pending → Host
  | .sandbox number call =>
    match host.sandboxes[number]? with
    | none => host
    | some (_, sandbox) =>
      let (desk, sandbox) := sandbox.abandon host.desk call
      { host.setSandbox number sandbox with desk }
  | .worker number call => host.changeWorker number (·.abandon call)
  | .toolchain number call =>
    { host with
      toolchainExecutors := host.toolchainExecutors.modify number (·.abandon call) }
  | .finished _ => host

/-- Destroys an executor. -/
def destroy (host : Host) : Executor → Host
  | .sandboxed number => host.destroySandbox number
  | .worker number => host.changeWorker number Worker.Place.destroy
  | .compiled executor => executor.delegate.elim host host.destroySandbox
  | .toolchain number =>
    { host with toolchainExecutors := host.toolchainExecutors.modify number (·.destroy) }

/-- Nobody has an executor any more: a context that it has goes with it. -/
def drop (host : Host) : Executor → Host
  | .sandboxed number => host.dropSandbox number
  | .compiled executor => executor.delegate.elim host host.dropSandbox
  | .worker _ | .toolchain _ => host

/-- The number of the broker that input for an executor goes to. -/
def brokerOf? (host : Host) : Executor → Option Nat
  | .sandboxed number => host.sandboxes[number]?.map (·.2.broker)
  | .worker number => host.workers[number]?.map (·.2.broker)
  | .compiled executor =>
    executor.delegate.bind fun number => host.sandboxes[number]?.map (·.2.broker)
  | .toolchain _ => none

/-- Gives a value to a broker; false when there is no broker or nobody waits. -/
def provide (host : Host) (broker : Option Nat) (value : String) : Host × Bool :=
  match broker with
  | none => (host, false)
  | some broker =>
    let (desk, accepted) := host.desk.provide broker value
    ({ host with desk }, accepted)

/-- The printed form of an executor. -/
def executorText (host : Host) : Executor → String
  | .sandboxed number =>
    let text := (host.sandboxes[number]?.map (·.2.toText)).getD ""
    s!"Sandboxed({text})"
  | .worker number =>
    let text := (host.workers[number]?.map (·.2.toText)).getD ""
    s!"Worker({text})"
  | .compiled executor => s!"Compiled({executor.toText})"
  | .toolchain number =>
    let text := (host.toolchainExecutors[number]?.map (·.toText)).getD ""
    s!"Toolchain({text})"

/-! ## Guests -/

/-- Changes the worker that a guest uses, together with the desk. -/
def changeGuest {α : Type} (host : Host) (guest : Guest) (fallback : α)
    (change : Desk → Worker.Handle → Desk × Worker.Handle × α) : Host × α :=
  match host.registries[guest.registry]? >>= (·.handles[guest.handle]?) with
  | none => (host, fallback)
  | some worker =>
    let (desk, worker, value) := change host.desk worker
    ({ host.modifyRegistry guest.registry fun registry =>
        registry.modifyHandle guest.handle fun _ => worker with desk }, value)

/-- The worker that a guest uses. -/
def guestHandle? (host : Host) (number : Nat) : Option Worker.Handle := do
  let guest ← host.guests[number]?
  host.registries[guest.registry]? >>= (·.handles[guest.handle]?)

/-- A guest runs code on its worker; the number is that of the run. -/
def callGuest (host : Host) (guest : Guest) (code : String) : Host × Nat :=
  host.changeGuest guest 0 fun desk worker => worker.run desk guest.broker code

/-- One turn of a run of a guest; none when it has to wait or is over. -/
def turnGuest (receiver : String → Option Nat) (host : Host) (number run : Nat) :
    Option Host := do
  let guest ← host.guests[number]?
  let worker ← host.guestHandle? number
  let (desk, worker) ← worker.turn receiver guest.cancelled host.desk run
  return { host.modifyRegistry guest.registry fun registry =>
    registry.modifyHandle guest.handle fun _ => worker with desk }

end Host

end Polyglot
