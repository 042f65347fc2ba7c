import Polyglot.Config.Basic
import Polyglot.Host.Executor

/-!
# Facades

A facade runs code of any configured language, one request at a time.  Each
request gets an executor of its own; while the request is in flight, the executor
is armed, which makes it the one that input is given to.
-/

namespace Polyglot

open Text

/-- A facade over the backends of a host. -/
structure Facade where
  config : Config
  /-- The number of its hook. -/
  hook : Nat
  /-- The number of its worker registry. -/
  registry : Nat
  /-- The launcher of each sandbox language. -/
  sandboxes : List (String × Nat) := []
  /-- The launcher of each worker language. -/
  workers : List (String × Nat) := []
  /-- The compiler of each language that is compiled to another. -/
  compilers : List (String × Nat) := []
  /-- The toolchain of each toolchain language, with what it needs. -/
  toolchains : List (String × Nat × Toolchain.Artifacts) := []
  /-- Whether a request is in flight. -/
  running : Bool := false
  /-- The executor of the request in flight. -/
  armed : Option Executor := none
  deriving Repr

/-- What comes of a request. -/
inductive Report where
  | result (result : RunResult)
  /-- The request was not run. -/
  | refused (cause : RunError)
  /-- The configured time to wait for a worker is no length of time. -/
  | broken
  deriving Repr

/-- Where a request stands. -/
inductive Request where
  /-- Its executor is being made ready to run the code. -/
  | starting (executor : Executor) (code : String) (pending : Pending)
  /-- Its code runs. -/
  | executing (executor : Executor) (pending : Pending)
  | finished (report : Report)
  /-- The caller has gone away. -/
  | abandoned
  deriving Repr

/-- Whether the executor of a request has been made ready, or could not be, and its code
was not submitted yet. -/
def Request.isReady (host : Host) : Request → Bool
  | .starting _ _ pending => (host.outcome? pending).isSome
  | .executing _ _ | .finished _ | .abandoned => false

/-- Why there is no executor for a language. -/
inductive Obstacle where
  | misconfigured (cause : ConfigError)
  /-- The configured time to wait for a worker is no length of time. -/
  | unusableTimeout
  deriving Repr

namespace Facade

/-- What a table has for a language. -/
def lookup {α : Type} (table : List (String × α)) (id : String) : Option α :=
  (table.find? (·.1 = id)).map (·.2)

/-- The obstacle that a language lacks a part of its backend. -/
def missing (id what : String) : Obstacle :=
  .misconfigured (.invalid s!"language '{id}' has no {what}")

/-- A new sandbox executor for a language. -/
def sandboxFor (host : Host) (facade : Facade) (id : String) : Except Obstacle (Host × Nat) :=
  match lookup facade.sandboxes id with
  | none => .error (missing id "sandbox launcher")
  | some launcher => .ok (host.addSandbox facade.hook launcher id)

/-- A new worker executor for a language. -/
def workerFor (host : Host) (facade : Facade) (id : String) : Except Obstacle (Host × Nat) :=
  match lookup facade.workers id with
  | none => .error (missing id "worker launcher")
  | some launcher =>
    match facade.config.readyTimeout? with
    | none => .error .unusableTimeout
    | some timeout => .ok (host.addWorker facade.hook facade.registry launcher id timeout)

/-- A new compile executor for a language, with a sandbox executor for the language
that it delegates to. -/
def compilerFor (host : Host) (facade : Facade) (id : String) (language : Language) :
    Except Obstacle (Host × Compile.Executor) := do
  let some compiler := lookup facade.compilers id | .error (missing id "compiler")
  let executor : Compile.Executor :=
    { language := id, compiler, options := language.compilerOptions }
  match language.transpile.bind (·.delegate) with
  | none => return (host, executor)
  | some delegate =>
    match facade.config.resolve delegate with
    | none => .error (.misconfigured (.languageNotFound delegate))
    | some (delegateId, _) =>
      let (host, sandbox) ← sandboxFor host facade delegateId
      return (host, { executor with delegate := some sandbox })

/-- A new toolchain executor for a language. -/
def toolchainFor (host : Host) (facade : Facade) (id : String) : Except Obstacle (Host × Nat) :=
  match lookup facade.toolchains id with
  | none => .error (missing id "toolchain")
  | some (toolchain, artifacts) => .ok (host.addToolchain toolchain id artifacts)

/-- A new executor for a language. -/
def executorFor (host : Host) (facade : Facade) (id : String) (language : Language) :
    Except Obstacle (Host × Executor) :=
  match language.backend with
  | .sandbox => (sandboxFor host facade id).map fun (host, number) => (host, .sandboxed number)
  | .worker => (workerFor host facade id).map fun (host, number) => (host, .worker number)
  | .transpile =>
    (compilerFor host facade id language).map fun (host, executor) => (host, .compiled executor)
  | .toolchain =>
    (toolchainFor host facade id).map fun (host, number) => (host, .toolchain number)

/-- No request is in flight any more. -/
def clear (facade : Facade) : Facade := { facade with running := false, armed := none }

/-- The report of a call that is over. -/
def report : Outcome → Report
  | .ok result => .result (result.getD {})
  | .error cause => .result (.failure s!"Error: {cause.message}")

/-- A request is over, and nobody has its executor any more. -/
def finish (host : Host) (facade : Facade) (executor : Executor) (outcome : Outcome) :
    Host × Facade × Request :=
  (host.drop executor, facade.clear, .finished (report outcome))

/-- Runs the code of a request whose executor is ready. -/
def proceed (host : Host) (facade : Facade) (executor : Executor) (code : String)
    (prepared : Outcome) : Host × Facade × Request :=
  match prepared with
  | .error cause => finish host facade executor (.error cause)
  | .ok _ =>
    let (host, pending) := host.call executor (.execute code)
    match host.outcome? pending with
    | some outcome => finish host facade executor outcome
    | none => (host, facade, .executing executor pending)

/-- Makes the executor of a request ready and goes on as far as that is possible. -/
def dispatch (host : Host) (facade : Facade) (executor : Executor) (code : String) :
    Host × Facade × Request :=
  let facade := { facade with armed := some executor }
  let (host, pending) := host.call executor .start
  match host.outcome? pending with
  | some prepared => proceed host facade executor code prepared
  | none => (host, facade, .starting executor code pending)

/-- A new request, up to the point where it has to wait.  One that comes while
another is in flight is refused and changes nothing. -/
def execute (host : Host) (facade : Facade) (request : RunRequest) :
    Host × Facade × Request :=
  if facade.running then (host, facade, .finished (.refused .alreadyExecuting))
  else
    match facade.config.resolve request.language with
    | none =>
      (host, facade.clear,
        .finished (.result (.failure s!"Language '{request.language}' is not supported")))
    | some (id, language) =>
      if isBlankText request.code then
        (host, facade.clear, .finished (.result (.failure emptySourceMessage)))
      else
        match executorFor host facade id language with
        | .error (.misconfigured cause) =>
          (host, facade.clear, .finished (.result (.failure s!"Error: {cause.message}")))
        | .error .unusableTimeout => (host, facade.clear, .finished .broken)
        | .ok (host, executor) =>
          dispatch host { facade with running := true } executor request.code

/-- One turn of a request; none when it has to wait or is over. -/
def turn (receiver : String → Option Nat) (host : Host) (facade : Facade) :
    Request → Option (Host × Facade × Request)
  | .starting executor code pending =>
    match host.outcome? pending with
    | some prepared => some (proceed host facade executor code prepared)
    | none => do
      let host ← host.turnCall receiver pending
      return (host, facade, .starting executor code pending)
  | .executing executor pending =>
    match host.outcome? pending with
    | some outcome => some (finish host facade executor outcome)
    | none => do
      let host ← host.turnCall receiver pending
      return (host, facade, .executing executor pending)
  | .finished _ | .abandoned => none

/-- The caller of a request in flight goes away: its executor is destroyed, so that
nothing goes on running. -/
def abandon (host : Host) (facade : Facade) : Request → Host × Facade × Request
  | .starting executor _ pending | .executing executor pending =>
    (((host.abandon pending).destroy executor).drop executor, facade.clear, .abandoned)
  | request => (host, facade, request)

/-- Stops the request in flight and every warm worker. -/
def destroy (host : Host) (facade : Facade) : Host :=
  let host := facade.armed.elim host host.destroy
  host.modifyRegistry facade.registry Worker.Registry.shutdownAll

/-- The number of the broker that input goes to. -/
def broker? (host : Host) (facade : Facade) : Option Nat :=
  facade.armed.bind host.brokerOf?

/-- The printed form of a facade. -/
def toText (host : Host) (facade : Facade) : String :=
  let languages := quotedList facade.config.languageIds
  let registry := (host.registries[facade.registry]?.map (·.toText)).getD ""
  s!"Runnr \x7b languages: {languages}, running: {facade.running}, registry: {registry} \x7d"

end Facade

end Polyglot
