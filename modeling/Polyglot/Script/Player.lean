import Polyglot.Channel.Link
import Polyglot.Failure
import Polyglot.Wire.Codec

/-!
# Scripted contexts

A scripted context stands in for a real one: it plays a list of actions for each
run that it is given.  Launchers of scripted contexts follow one plan after the
other.  Gates hold a launch or a play up until somebody releases them.
-/

namespace Polyglot.Script

/-- A thing that a scripted context does. -/
inductive Action where
  /-- Sends a chunk of standard output. -/
  | out (text : String)
  /-- Sends a chunk of standard error. -/
  | err (text : String)
  /-- Asks for input. -/
  | post (message : String)
  /-- Waits for an answer and remembers it. -/
  | read
  /-- Sends a chunk of standard output that ends in the last answer. -/
  | say (text : String)
  /-- Says that the code has run. -/
  | done
  /-- Says that the code failed. -/
  | error (text : String)
  /-- Says that it is ready. -/
  | ready
  /-- Waits at a gate. -/
  | gate
  /-- Takes messages for ever and does nothing. -/
  | hang
  /-- Goes away. -/
  | exit
  /-- Does nothing. -/
  | idle
  deriving Repr, DecidableEq

/-- What happens at one launch. -/
structure Plan where
  /-- Whether the launch waits at a gate. -/
  gate : Bool := false
  /-- Why the launch fails, if it does. -/
  failure : Option TransportError := none
  /-- What the context does at first; none for what is usual. -/
  boot : Option (List Action) := none
  /-- What it does for one run after the other. -/
  plays : List (List Action) := []
  /-- Whether nothing of the launch and of the context is written down. -/
  silent : Bool := false
  deriving Repr, DecidableEq

/-- How contexts of one kind speak; messages to them are of type `Out` and those
from them of type `In`. -/
structure Dialect (Out In : Type) where
  /-- What an action sends when the last answer is known. -/
  message? : String → Action → Option In
  /-- Whether a message submits code. -/
  isRun : Out → Bool
  /-- The answer that a message brings. -/
  answer? : Out → Option String
  /-- What a context does at first unless a plan says otherwise. -/
  boot : List Action

/-- How sandboxes speak. -/
def sandboxDialect : Dialect HostMessage SandboxMessage where
  message? answer
    | .out text => some (.stdout text)
    | .err text => some (.stderr text)
    | .post message => some (.inputRequest message)
    | .say text => some (.stdout (text ++ answer))
    | .done => some .executionComplete
    | _ => none
  isRun
    | .executeCode _ => true
    | .inputResponse _ => false
  answer?
    | .inputResponse value => some value
    | .executeCode _ => none
  boot := []

/-- How interpreters speak. -/
def interpreterDialect : Dialect InterpreterRequest WorkerMessage where
  message? answer
    | .out text => some (.stdout text)
    | .err text => some (.stderr text)
    | .post message => some (.inputRequest message)
    | .say text => some (.stdout (text ++ answer))
    | .done => some .done
    | .error text => some (.error text)
    | .ready => some .ready
    | _ => none
  isRun
    | .run _ _ _ => true
    | .inputResponse _ => false
  answer?
    | .inputResponse value => some value
    | .run _ _ _ => none
  boot := [.ready]

/-- A scripted context. -/
structure Player where
  /-- The number of its launcher, whose gates it waits at. -/
  launcher : Nat
  silent : Bool
  /-- What is left of what it is doing; nothing when it waits for a message. -/
  play : List Action
  /-- What it does for the runs to come. -/
  plays : List (List Action)
  /-- The last answer. -/
  answer : String := ""
  deriving Repr, DecidableEq

/-- What a turn of a scripted context does besides. -/
structure Trace where
  /-- The message that was received, as it is written. -/
  received : Option Json := none
  /-- Whether a gate was passed. -/
  passed : Bool := false

/-- A scripted context that a plan sets up. -/
def Player.ofPlan {Out In : Type} (dialect : Dialect Out In) (launcher : Nat) (plan : Plan) :
    Player :=
  { launcher, silent := plan.silent, play := plan.boot.getD dialect.boot, plays := plan.plays }

namespace Player

variable {Out In : Type}

/-- Begins the next play. -/
def nextPlay (player : Player) : Player :=
  match player.plays with
  | play :: plays => { player with play, plays }
  | [] => { player with play := [.done] }

/-- What becomes of a context that received a message: outside a play a submission
begins the next one, and a context that reads goes on with an answer. -/
def receive (dialect : Dialect Out In) (player : Player) (message : Out) : Player :=
  match player.play with
  | [] => if dialect.isRun message then player.nextPlay else player
  | .read :: rest =>
    match dialect.answer? message with
    | some answer => { player with play := rest, answer }
    | none => player
  | _ :: _ => player

/-- Looks for a message; a context whose host has gone away goes away too. -/
def listen [WireForm Out] (dialect : Dialect Out In) (player : Player) (link : Link Out In) :
    Option (Player × Link Out In × Trace) :=
  match link.contextReceive with
  | (.waiting, _) => none
  | (.gone, _) => some (player, link.dropContext, {})
  | (.message message, link) =>
    some (player.receive dialect message, link, { received := some (WireForm.toJson message) })

/-- Sends what an action says, if it says something. -/
def send (dialect : Dialect Out In) (player : Player) (link : Link Out In) (action : Action) :
    Link Out In :=
  match dialect.message? player.answer action with
  | none => link
  | some message => (link.contextSend? message).getD link.dropContext

/-- One turn of a scripted context; none when it has to wait or has gone away.
`gateOpen` says whether a gate can be passed. -/
def turn [WireForm Out] (dialect : Dialect Out In) (gateOpen : Bool) (player : Player)
    (link : Link Out In) : Option (Player × Link Out In × Trace) :=
  if !link.contextOpen then none
  else
    match player.play with
    | [] | .read :: _ | .hang :: _ => player.listen dialect link
    | .gate :: rest =>
      if gateOpen then some ({ player with play := rest }, link, { passed := true })
      else if link.hostOpen then none
      else some (player, link.dropContext, {})
    | .exit :: _ => some (player, link.dropContext, {})
    | action :: rest => some ({ player with play := rest }, player.send dialect link action, {})

end Player

end Polyglot.Script
