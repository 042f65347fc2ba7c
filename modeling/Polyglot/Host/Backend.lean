import Polyglot.Host.Basic

/-!
# Backends of a host

What goes on without any executor: launches, scripted contexts and the relays of
workers, each in turns.
-/

namespace Polyglot

open Script

/-- The first value that a function finds for the numbers below a bound. -/
def firstBelow? {α : Type} (bound : Nat) (find : Nat → Option α) : Option α :=
  (List.range bound).findSome? find

namespace Host

/-! ## Contexts -/

/-- Writes down what a context received and which gate it passed. -/
def trace (host : Host) (player : Player) (trace : Trace) : Host :=
  let host := if trace.passed then host.passGate player.launcher else host
  match trace.received with
  | some message =>
    if player.silent then host
    else host.write (host.launcherName player.launcher) (.received message)
  | none => host

/-- The link to a context of a sandbox executor. -/
def sandboxLink? (host : Host) (executor context : Nat) :
    Option (Link HostMessage SandboxMessage) :=
  host.sandboxes[executor]? >>= (·.2.contexts[context]?)

/-- Changes the link to a context of a sandbox executor. -/
def setSandboxLink (host : Host) (executor context : Nat)
    (link : Link HostMessage SandboxMessage) : Host :=
  { host with
    sandboxes := host.sandboxes.modify executor fun (launcher, sandbox) =>
      (launcher, { sandbox with contexts := sandbox.contexts.set context link }) }

/-- The link to the interpreter of a worker. -/
def interpreterLink? (host : Host) (registry handle : Nat) :
    Option (Link InterpreterRequest WorkerMessage) :=
  host.registries[registry]? >>= (·.handles[handle]?) >>= (·.interpreter)

/-- Changes the link to the interpreter of a worker. -/
def setInterpreterLink (host : Host) (registry handle : Nat)
    (link : Link InterpreterRequest WorkerMessage) : Host :=
  host.modifyRegistry registry fun registry =>
    registry.modifyHandle handle fun worker => { worker with interpreter := some link }

/-- Changes what is at the other end of a link. -/
def setPeer (host : Host) (number : Nat) (seat : Seat) (peer : Peer) : Host :=
  { host with peers := host.peers.set number (seat, peer) }

/-- One turn of the scripted context of that number. -/
def turnPlayer (host : Host) (number : Nat) : Option Host := do
  let (seat, .scripted player) ← host.peers[number]? | none
  let gateOpen := host.gateOpen player.launcher
  match seat with
  | .sandbox executor context =>
    let link ← host.sandboxLink? executor context
    let (after, link, trace) ← player.turn sandboxDialect gateOpen link
    return ((host.setSandboxLink executor context link).trace player trace).setPeer number seat
      (.scripted after)
  | .interpreter registry handle =>
    let link ← host.interpreterLink? registry handle
    let (after, link, trace) ← player.turn interpreterDialect gateOpen link
    return ((host.setInterpreterLink registry handle link).trace player trace).setPeer number seat
      (.scripted after)

/-- One turn of the child process of that number. -/
def turnChild (host : Host) (number : Nat) : Option Host := do
  let (seat, .child child) ← host.peers[number]? | none
  match seat with
  | .sandbox executor context =>
    let link ← host.sandboxLink? executor context
    let (after, link) ← child.turn link
    return (host.setSandboxLink executor context link).setPeer number seat (.child after)
  | .interpreter registry handle =>
    let link ← host.interpreterLink? registry handle
    let (after, link) ← child.turn link
    return (host.setInterpreterLink registry handle link).setPeer number seat (.child after)

/-- One turn of the first child process that has something to do.  Processes are slow:
their turn comes when nothing else can move. -/
def turnChildren (host : Host) : Option Host := firstBelow? host.peers.length host.turnChild

/-! ## Relays -/

/-- One turn of the relay of a worker. -/
def turnRelay (host : Host) (registry handle : Nat) : Option Host := do
  let worker ← host.registries[registry]? >>= (·.handles[handle]?)
  let worker ← worker.turnRequest <|> worker.turnMessage
  return host.modifyRegistry registry fun registry => registry.modifyHandle handle fun _ => worker

/-- One turn of the first relay that has something to do. -/
def turnRelays (host : Host) : Option Host :=
  firstBelow? host.registries.length fun registry =>
    let workers := (host.registries[registry]?.map (·.handles.length)).getD 0
    firstBelow? workers fun handle => host.turnRelay registry handle

/-! ## Launches -/

/-- The launcher of what waits for a launch; none when nobody waits. -/
def launcherOf? (host : Host) : Awaiting → Option Nat
  | .call executor call => do
    let (launcher, sandbox) ← host.sandboxes[executor]?
    if sandbox.isLaunching call then some launcher else none
  | .relay registry handle => do
    let worker ← host.registries[registry]? >>= (·.handles[handle]?)
    if worker.relay = .launching then some worker.launcher else none

/-- The first waiting for a launch that has not begun. -/
def nextAwaiting? (host : Host) : Option Awaiting :=
  let unbegun (awaiting : Awaiting) : Option Awaiting :=
    if (host.launcherOf? awaiting).isSome && !host.launches.any (·.1 = awaiting) then some awaiting
    else none
  let calls := firstBelow? host.sandboxes.length fun executor =>
    let calls := (host.sandboxes[executor]?.map (·.2.calls.length)).getD 0
    firstBelow? calls fun call => unbegun (.call executor call)
  let relays := firstBelow? host.registries.length fun registry =>
    let workers := (host.registries[registry]?.map (·.handles.length)).getD 0
    firstBelow? workers fun handle => unbegun (.relay registry handle)
  calls <|> relays

/-- Takes the next plan of a launcher. -/
def takePlan (host : Host) (launcher : Nat) : Host × Plan :=
  match host.launchers[launcher]? with
  | some { source := .plans (plan :: plans), .. } =>
    ({ host with
        launchers := host.launchers.modify launcher fun launcher =>
          { launcher with source := .plans plans } }, plan)
  | _ => (host, {})

/-- A launch begins.  One that goes as planned is written down, unless its plan says
otherwise. -/
def beginLaunch (host : Host) (awaiting : Awaiting) (launcher : Nat) : Host :=
  match host.launchers[launcher]? with
  | some { source := .processes source, .. } =>
    { host with launches := host.launches ++ [(awaiting, .started (source.launch host.site))] }
  | _ =>
    let (host, plan) := host.takePlan launcher
    let host := if plan.silent then host else host.write (host.launcherName launcher) .launched
    { host with launches := host.launches ++ [(awaiting, .planned plan)] }

/-- Adds what stands behind a context, if anything does. -/
def addPeer (host : Host) (seat : Seat) (peer : Option Peer) : Host :=
  { host with peers := peer.elim host.peers fun peer => host.peers ++ [(seat, peer)] }

/-- Whoever waits for a launch learns of its outcome. -/
def deliver (host : Host) (launcher : Nat) (launching : Launching) (awaiting : Awaiting) : Host :=
  match awaiting with
  | .call executor call =>
    match host.sandboxes[executor]? with
    | none => host
    | some (_, sandbox) =>
      let purpose := (sandbox.calls[call]?.map (·.purpose)).getD .start
      let seat := Seat.sandbox executor sandbox.contexts.length
      let (desk, after) := sandbox.launched host.desk call purpose launching.outcome
      { host.setSandbox executor after with desk }.addPeer seat
        (launching.peer? sandboxDialect launcher)
  | .relay registry handle =>
    (host.modifyRegistry registry fun registry =>
      registry.modifyHandle handle fun worker => worker.launched launching.outcome).addPeer
      (.interpreter registry handle) (launching.peer? interpreterDialect launcher)

/-- One turn of the launch of that number: it ends as soon as nothing holds it up,
and comes to nothing when nobody waits for it any more. -/
def turnLaunch (host : Host) (number : Nat) : Option Host := do
  let (awaiting, launching) ← host.launches[number]?
  let ended := { host with launches := host.launches.eraseIdx number }
  match host.launcherOf? awaiting with
  | none => return ended
  | some launcher =>
    if !launching.gate then return ended.deliver launcher launching awaiting
    else if host.gateOpen launcher then
      return (ended.passGate launcher).deliver launcher launching awaiting
    else none

/-- One turn of the launches: the next one begins, or one ends. -/
def turnLaunches (host : Host) : Option Host :=
  match host.nextAwaiting? with
  | some awaiting =>
    (host.launcherOf? awaiting).map fun launcher => host.beginLaunch awaiting launcher
  | none => firstBelow? host.launches.length host.turnLaunch

/-- One turn of whatever goes on without an executor, child processes apart. -/
def turnBackends (host : Host) : Option Host :=
  firstBelow? host.peers.length host.turnPlayer <|> host.turnRelays <|> host.turnLaunches

end Host

end Polyglot
