import Polyglot.Compile.Command
import Polyglot.Compile.Executor
import Polyglot.Exec.Child
import Polyglot.Sandbox.Executor
import Polyglot.Script.Player
import Polyglot.Toolchain.Command
import Polyglot.Worker.Executor

/-!
# Hosts

A host holds every executor there is and everything they share: the desk of the
input requests, the launchers with the contexts that came of them, the worker
registries, the compilers and the toolchains.  All of them are known by numbers.
-/

namespace Polyglot

open Text

/-- Something that a scripted backend writes down. -/
inductive Entry where
  /-- A launch began. -/
  | launched
  /-- A context received a message. -/
  | received (message : Json)
  /-- A compiler was given code. -/
  | compiled (source : String) (options : CompilerOptions)
  /-- A toolchain was asked to look for what it needs. -/
  | prepared (artifacts : Toolchain.Artifacts)
  /-- A toolchain was given code. -/
  | ran (source : String)
  deriving Repr

/-- Entries with the name of the backend that wrote each, oldest first. -/
abbrev Log := List (String × Entry)

/-- Where contexts come from. -/
inductive Source where
  /-- Scripted contexts, one plan for each launch. -/
  | plans (plans : List Script.Plan)
  /-- Child processes. -/
  | processes (launcher : Exec.Launcher)
  deriving Repr

/-- A launcher of contexts. -/
structure Launcher where
  name : String
  source : Source
  /-- How many gates were released. -/
  releases : Nat := 0
  /-- How many gates were passed. -/
  passed : Nat := 0
  deriving Repr

/-- Whether a gate of a launcher can be passed. -/
def Launcher.gateOpen (launcher : Launcher) : Bool := launcher.passed < launcher.releases

/-- A source-to-source compiler. -/
inductive Compiler where
  /-- A compiler that gives one answer after the other, and the source itself where
  there is none. -/
  | scripted (name : String) (answers : List (Option Compilation))
  /-- A compiler that is a command. -/
  | command (line : Compile.CommandLine)
  deriving Repr

/-- Compiles source text. -/
def Compiler.compile (site : Exec.Site) (state : Log × Compiler) (source : String)
    (options : CompilerOptions) : (Log × Compiler) × Compilation :=
  match state with
  | (log, .command line) => ((log, .command line), line.compile site source options)
  | (log, .scripted name answers) =>
    ((log ++ [(name, .compiled source options)], .scripted name answers.tail),
      (answers.head?.join).getD (.compiled source))

/-- A toolchain. -/
inductive ToolchainBackend where
  /-- A toolchain that answers from two lists.  A run that has no answer ends well
  and prints its source; one whose answer is none does not end. -/
  | scripted (name : String) (preparations : List (Except ToolchainError Unit))
    (runs : List (Option (Except ToolchainError Toolchain.Output)))
  /-- A toolchain of two commands. -/
  | commands (pair : Toolchain.CommandPair)
  deriving Repr

namespace ToolchainBackend

/-- Looks for what a toolchain needs. -/
def prepare (site : Exec.Site) (state : Log × ToolchainBackend)
    (artifacts : Toolchain.Artifacts) : (Log × ToolchainBackend) × Except ToolchainError Unit :=
  match state with
  | (log, .commands pair) =>
    let (pair, outcome) := pair.prepare site artifacts
    ((log, .commands pair), outcome)
  | (log, .scripted name preparations runs) =>
    ((log ++ [(name, .prepared artifacts)], .scripted name preparations.tail runs),
      preparations.head?.getD (.ok ()))

/-- Compiles source text and runs the program. -/
def run (site : Exec.Site) (state : Log × ToolchainBackend) (source : String) :
    (Log × ToolchainBackend) × Option (Except ToolchainError Toolchain.Output) :=
  match state with
  | (log, .commands pair) =>
    ((log, .commands pair),
      match pair.compileAndRun site source with
      | .ok none => none
      | .ok (some output) => some (.ok output)
      | .error cause => some (.error cause))
  | (log, .scripted name preparations runs) =>
    ((log ++ [(name, .ran source)], .scripted name preparations runs.tail),
      runs.head?.getD (some (.ok { stdout := source })))

/-- What a toolchain can do. -/
def interface (site : Exec.Site) : Toolchain.Interface (Log × ToolchainBackend) :=
  ⟨prepare site, run site⟩

end ToolchainBackend

/-- Where an isolated context is. -/
inductive Seat where
  /-- The context of that number of a sandbox executor. -/
  | sandbox (executor context : Nat)
  /-- The interpreter of a worker of a registry. -/
  | interpreter (registry handle : Nat)
  deriving Repr, DecidableEq

/-- Who waits for a launch. -/
inductive Awaiting where
  /-- A call of a sandbox executor. -/
  | call (executor call : Nat)
  /-- The relay of a worker of a registry. -/
  | relay (registry handle : Nat)
  deriving Repr, DecidableEq

/-- What is at the other end of the link to a context. -/
inductive Peer where
  | scripted (player : Script.Player)
  | child (child : Exec.Child)
  deriving Repr

/-- A launch under way. -/
inductive Launching where
  /-- It goes as planned. -/
  | planned (plan : Script.Plan)
  /-- A process was started, or could not be. -/
  | started (outcome : Except TransportError Exec.Job)
  deriving Repr

namespace Launching

/-- Whether a launch waits at a gate. -/
def gate : Launching → Bool
  | .planned plan => plan.gate
  | .started _ => false

/-- How a launch goes. -/
def outcome : Launching → Except TransportError Unit
  | .planned plan => plan.failure.elim (.ok ()) .error
  | .started outcome => outcome.map fun _ => ()

/-- What stands behind the context that came of a launch; none when it failed. -/
def peer? {Out In : Type} (dialect : Script.Dialect Out In) (launcher : Nat) :
    Launching → Option Peer
  | .planned plan =>
    if plan.failure.isSome then none else some (.scripted (.ofPlan dialect launcher plan))
  | .started (.ok job) => some (.child { job })
  | .started (.error _) => none

end Launching

/-- A worker that is used without an executor. -/
structure Guest where
  registry : Nat
  handle : Nat
  /-- The number of its broker. -/
  broker : Nat
  /-- Whether its runs are cancelled. -/
  cancelled : Bool := false
  deriving Repr

/-- The state of a host. -/
structure Host where
  desk : Desk := {}
  launchers : List Launcher := []
  compilers : List Compiler := []
  toolchains : List ToolchainBackend := []
  /-- The sandbox executors, each with the number of its launcher. -/
  sandboxes : List (Nat × Sandbox.Executor) := []
  registries : List Worker.Registry := []
  /-- The worker executors, each with the number of its registry. -/
  workers : List (Nat × Worker.Executor) := []
  toolchainExecutors : List Toolchain.Executor := []
  guests : List Guest := []
  /-- The launches under way. -/
  launches : List (Awaiting × Launching) := []
  /-- The contexts that were launched. -/
  peers : List (Seat × Peer) := []
  /-- Where commands run. -/
  site : Exec.Site := {}
  log : Log := []
  deriving Repr

namespace Host

/-- Writes an entry down. -/
def write (host : Host) (name : String) (entry : Entry) : Host :=
  { host with log := host.log ++ [(name, entry)] }

/-- The name of a launcher. -/
def launcherName (host : Host) (launcher : Nat) : String :=
  (host.launchers[launcher]?.map (·.name)).getD ""

/-- Whether a gate of a launcher can be passed. -/
def gateOpen (host : Host) (launcher : Nat) : Bool :=
  host.launchers[launcher]?.any Launcher.gateOpen

/-- A gate of a launcher is passed. -/
def passGate (host : Host) (launcher : Nat) : Host :=
  { host with
    launchers := host.launchers.modify launcher fun launcher =>
      { launcher with passed := launcher.passed + 1 } }

/-- A gate of a launcher is released. -/
def release (host : Host) (launcher : Nat) : Host :=
  { host with
    launchers := host.launchers.modify launcher fun launcher =>
      { launcher with releases := launcher.releases + 1 } }

/-- Changes a registry. -/
def modifyRegistry (host : Host) (number : Nat) (change : Worker.Registry → Worker.Registry) :
    Host :=
  { host with registries := host.registries.modify number change }

/-- Changes a sandbox executor. -/
def setSandbox (host : Host) (number : Nat) (executor : Sandbox.Executor) : Host :=
  { host with
    sandboxes := host.sandboxes.modify number fun (launcher, _) => (launcher, executor) }

/-- Adds a sandbox executor whose broker tells a hook of its requests. -/
def addSandbox (host : Host) (hook launcher : Nat) (language : String) : Host × Nat :=
  let (desk, broker) := host.desk.addBroker hook language
  ({ host with desk, sandboxes := host.sandboxes ++ [(launcher, { language, broker })] },
    host.sandboxes.length)

/-- Adds a worker executor whose broker tells a hook of its requests. -/
def addWorker (host : Host) (hook registry launcher : Nat) (language : String)
    (timeout : Duration) : Host × Nat :=
  let (desk, broker) := host.desk.addBroker hook language
  ({ host with
      desk
      workers := host.workers ++ [(registry, { language, launcher, timeout, broker })] },
    host.workers.length)

/-- Adds a toolchain executor. -/
def addToolchain (host : Host) (toolchain : Nat) (language : String)
    (artifacts : Toolchain.Artifacts) : Host × Nat :=
  ({ host with
      toolchainExecutors := host.toolchainExecutors ++ [{ language, toolchain, artifacts }] },
    host.toolchainExecutors.length)

/-- Adds a registry. -/
def addRegistry (host : Host) : Host × Nat :=
  ({ host with registries := host.registries ++ [{}] }, host.registries.length)

end Host

end Polyglot
