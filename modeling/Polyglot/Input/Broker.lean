/-!
# Input requests

Running code asks for input and goes on; the answer comes later.  A broker turns
every request into a ticket, keeps the tickets that are still open in the order
of the requests, and gives every value to the oldest ticket whose holder still
waits for it.
-/

namespace Polyglot

/-- Where a request stands, as its holder sees it. -/
inductive Ticket where
  /-- The holder waits for a value. -/
  | waiting
  /-- A value has come and has not been taken. -/
  | answered (value : String)
  /-- No value will come any more. -/
  | closed
  /-- The holder has gone away. -/
  | abandoned
  deriving Repr, DecidableEq

/-- The input requests of one executor. -/
structure Broker where
  /-- The language whose code asks. -/
  language : String
  /-- Every ticket, in the order of the requests. -/
  tickets : List Ticket := []
  /-- The numbers of the tickets that are open, oldest first. -/
  queue : List Nat := []
  deriving Repr, DecidableEq

namespace Broker

/-- The state of a ticket. -/
def ticket (broker : Broker) (number : Nat) : Ticket :=
  broker.tickets[number]?.getD .closed

/-- The number of open tickets. -/
def pendingCount (broker : Broker) : Nat := broker.queue.length

/-- Sets the state of a ticket. -/
def setTicket (broker : Broker) (number : Nat) (state : Ticket) : Broker :=
  { broker with tickets := broker.tickets.set number state }

/-- A request that somebody will be told of: its ticket is open. -/
def enqueue (broker : Broker) : Broker × Nat :=
  ({ broker with
      tickets := broker.tickets ++ [.waiting]
      queue := broker.queue ++ [broker.tickets.length] }, broker.tickets.length)

/-- A request that nobody will be told of: it is answered at once with nothing,
and the open tickets stay as they are. -/
def answerUnattended (broker : Broker) : Broker × Nat :=
  ({ broker with tickets := broker.tickets ++ [.answered ""] }, broker.tickets.length)

/-- Registers a request; `attended` says whether somebody will be told of it. -/
def request (broker : Broker) (attended : Bool) : Broker × Nat :=
  if attended then broker.enqueue else broker.answerUnattended

/-- Gives a value to the oldest of the queued tickets that is waiting, and
forgets the ones before it. -/
def provideTo (value : String) (broker : Broker) : List Nat → Broker × Bool
  | [] => ({ broker with queue := [] }, false)
  | number :: rest =>
    if broker.ticket number = .waiting then
      ({ broker.setTicket number (.answered value) with queue := rest }, true)
    else provideTo value broker rest

/-- Gives a value to the oldest open ticket whose holder waits; false when there
is none, and then the value is lost. -/
def provide (broker : Broker) (value : String) : Broker × Bool :=
  provideTo value broker broker.queue

/-- Closes every open ticket. -/
def reset (broker : Broker) : Broker :=
  { broker with
    tickets := broker.tickets.mapIdx fun number ticket =>
      if ticket = .waiting && broker.queue.contains number then .closed else ticket
    queue := [] }

/-- The holder of a ticket goes away. -/
def abandon (broker : Broker) (number : Nat) : Broker :=
  broker.setTicket number .abandoned

/-- The holder of a ticket takes its value, if one has come. -/
def take (broker : Broker) (number : Nat) : Broker :=
  match broker.ticket number with
  | .answered _ => broker.setTicket number .closed
  | _ => broker

end Broker

end Polyglot
