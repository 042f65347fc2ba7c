import Polyglot.Input.Broker

/-!
# Input hooks

Hosts learn of input requests through a hook, which holds at most one callback.
The callback is called while the request is being made, and may give a value to
a broker at once: to the one that asks or to any other.
-/

namespace Polyglot

/-- A callback that answers requests from a list of values. -/
structure Callback where
  name : String
  /-- The values still to be given, in order. -/
  answers : List String
  /-- The name of the receiver of the values. -/
  target : String
  deriving Repr, DecidableEq

/-- What a callback was told and what became of its answer. -/
structure Ask where
  callback : String
  language : String
  message : String
  /-- Whether the answer was accepted; none if there was no answer. -/
  provided : Option Bool
  deriving Repr, DecidableEq

/-- The place for a callback. -/
structure Hook where
  callback : Option Callback := none
  deriving Repr, DecidableEq

namespace Hook

/-- Whether a callback is registered. -/
def isSet (hook : Hook) : Bool := hook.callback.isSome

/-- The printed form of a hook. -/
def toText (hook : Hook) : String := s!"InputHook \x7b registered: {hook.isSet} \x7d"

end Hook

/-- Hooks and the brokers that tell them of requests. -/
structure Desk where
  hooks : List Hook := []
  /-- Every broker with the number of its hook. -/
  brokers : List (Nat × Broker) := []
  /-- What callbacks were told, oldest first. -/
  asks : List Ask := []
  deriving Repr, DecidableEq

namespace Desk

/-- A broker by its number. -/
def broker? (desk : Desk) (number : Nat) : Option Broker :=
  desk.brokers[number]?.map (·.2)

/-- Adds a broker that tells a hook of its requests. -/
def addBroker (desk : Desk) (hook : Nat) (language : String) : Desk × Nat :=
  ({ desk with brokers := desk.brokers ++ [(hook, { language })] }, desk.brokers.length)

/-- Changes one of the brokers. -/
def modify (desk : Desk) (number : Nat) (change : Broker → Broker) : Desk :=
  { desk with brokers := desk.brokers.modify number fun (hook, broker) => (hook, change broker) }

/-- Registers a callback at a hook, in place of an earlier one, or removes it. -/
def setHook (desk : Desk) (hook : Nat) (callback : Option Callback) : Desk :=
  { desk with hooks := desk.hooks.set hook ⟨callback⟩ }

/-- Gives a value to a broker; one that does not exist takes none. -/
def provide (desk : Desk) (number : Nat) (value : String) : Desk × Bool :=
  match desk.broker? number with
  | none => (desk, false)
  | some broker =>
    let (served, accepted) := broker.provide value
    (desk.modify number fun _ => served, accepted)

/-- What the holder of a ticket is to pass on: the value that came, or nothing when
none will come.  None as long as the holder has to wait. -/
def answer? (desk : Desk) (number ticket : Nat) : Option String :=
  match (desk.broker? number).elim .closed (·.ticket ticket) with
  | .waiting => none
  | .answered value => some value
  | .closed | .abandoned => some ""

/-- The holder of several tickets of a broker goes away. -/
def abandonAll (desk : Desk) (number : Nat) (tickets : List Nat) : Desk :=
  desk.modify number fun broker => tickets.foldl Broker.abandon broker

/-- Calls the callback of a hook for a request; `receiver` is the broker that
its value goes to. -/
def call (desk : Desk) (receiver : Option Nat) (hook : Nat) (callback : Callback)
    (language message : String) : Desk :=
  match callback.answers with
  | [] => { desk with asks := desk.asks ++ [⟨callback.name, language, message, none⟩] }
  | value :: rest =>
    let desk := desk.setHook hook (some { callback with answers := rest })
    let (desk, accepted) :=
      match receiver with
      | none => (desk, false)
      | some number => desk.provide number value
    { desk with asks := desk.asks ++ [⟨callback.name, language, message, some accepted⟩] }

/-- A request at one of the brokers: it is registered before the callback is
called.  The broker that a callback's target stands for is found by
`receiver`. -/
def request (desk : Desk) (receiver : String → Option Nat) (number : Nat) (message : String) :
    Desk × Nat :=
  match desk.brokers[number]? with
  | none => (desk, 0)
  | some (hook, broker) =>
    let callback := desk.hooks[hook]? >>= (·.callback)
    let (asked, ticket) := broker.request callback.isSome
    let desk := desk.modify number fun _ => asked
    match callback with
    | none => (desk, ticket)
    | some callback =>
      (desk.call (receiver callback.target) hook callback broker.language message, ticket)

end Desk

end Polyglot
