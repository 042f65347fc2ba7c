/-!
# Links

A link joins the host to one isolated context: a queue of messages in each
direction.  A side that goes away takes the messages queued for it with it, and
leaves those it sent.
-/

namespace Polyglot

/-- The two queues between a host and a context, oldest message first. -/
structure Link (Out In : Type) where
  /-- Messages from the host that the context has not received. -/
  toContext : List Out := []
  /-- Messages from the context that the host has not received. -/
  toHost : List In := []
  /-- Whether the host's side is still there. -/
  hostOpen : Bool := true
  /-- Whether the context's side is still there. -/
  contextOpen : Bool := true
  deriving Repr, DecidableEq

/-- What a side finds when it looks for a message. -/
inductive Received (α : Type) where
  | message (value : α)
  /-- Nothing is queued, but the other side is still there. -/
  | waiting
  /-- Nothing is queued and the other side is gone. -/
  | gone
  deriving Repr, DecidableEq

namespace Link

variable {Out In : Type}

/-- Whether a message from the host would be lost. -/
def isClosed (link : Link Out In) : Bool := !link.contextOpen

/-- The host sends a message; none when the context is gone. -/
def hostSend? (link : Link Out In) (message : Out) : Option (Link Out In) :=
  if link.contextOpen then some { link with toContext := link.toContext ++ [message] } else none

/-- The context sends a message; none when the host is gone. -/
def contextSend? (link : Link Out In) (message : In) : Option (Link Out In) :=
  if link.hostOpen then some { link with toHost := link.toHost ++ [message] } else none

/-- The host looks for a message. -/
def hostReceive (link : Link Out In) : Received In × Link Out In :=
  match link.toHost with
  | message :: rest => (.message message, { link with toHost := rest })
  | [] => (if link.contextOpen then .waiting else .gone, link)

/-- The context looks for a message. -/
def contextReceive (link : Link Out In) : Received Out × Link Out In :=
  match link.toContext with
  | message :: rest => (.message message, { link with toContext := rest })
  | [] => (if link.hostOpen then .waiting else .gone, link)

/-- The host discards what is queued for it. -/
def drain (link : Link Out In) : Link Out In := { link with toHost := [] }

/-- The printed form of the host's side of a link that no child process backs. -/
def toText (link : Link Out In) : String :=
  s!"Endpoint \x7b closed: {link.isClosed}, pid: None \x7d"

/-- The host's side goes away. -/
def dropHost (link : Link Out In) : Link Out In := { link with hostOpen := false, toHost := [] }

/-- The context's side goes away. -/
def dropContext (link : Link Out In) : Link Out In :=
  { link with contextOpen := false, toContext := [] }

end Link

end Polyglot
