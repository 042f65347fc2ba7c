import Polyglot.Proofs.Channel.Context
import Polyglot.Worker.Executor

/-!
# Interleavings of worker executors

Several executors share one registry.  Their callers act in turns, and in between
anything can happen to the registry and to its workers: somebody without an executor
asks for a worker, a start takes too long, a language is shut down, a relay or an
interpreter moves, a worker is dropped.
-/

namespace Polyglot.Worker

/-- A registry, the executors that use it, and the desk of their brokers. -/
structure Workshop where
  desk : Desk
  registry : Registry
  executors : List Executor

/-- Something that happens in a workshop. -/
inductive Occurrence where
  /-- Somebody calls an executor. -/
  | call (executor : Nat) (purpose : Purpose)
  /-- A call of an executor takes a turn. -/
  | poll (receiver : String → Option Nat) (executor call : Nat)
  /-- The caller of a call goes away. -/
  | abandon (executor call : Nat)
  | destroy (executor : Nat)
  /-- Somebody without an executor asks for a worker. -/
  | acquire (language : String) (launcher : Nat) (timeout : Duration)
  /-- A start goes on because somebody without an executor looks. -/
  | start (number : Nat)
  /-- Somebody without an executor takes the outcome of a start. -/
  | collect (language : String) (start : Nat)
  /-- A start has taken all the time it may take. -/
  | expire (start : Nat)
  | shutdown (language : String)
  | shutdownAll
  /-- The launch that a relay waits for has an outcome. -/
  | launched (handle : Nat) (outcome : Except TransportError Unit)
  /-- A relay takes the next request of its handle. -/
  | request (handle : Nat)
  /-- A relay takes the next message of its interpreter. -/
  | message (handle : Nat)
  /-- An interpreter does something at its end of the link. -/
  | interpreter (handle : Nat) (act : Link.Act WorkerMessage)
  /-- Nobody has a worker any more. -/
  | drop (handle : Nat)
  /-- Something happens at the desk: input is provided, or a callback registered. -/
  | desk (desk : Desk)

/-- The executor whose caller causes an occurrence. -/
def Occurrence.executor? : Occurrence → Option Nat
  | .call executor _ | .poll _ executor _ | .abandon executor _ | .destroy executor =>
    some executor
  | _ => none

namespace Workshop

/-- An executor with what it works on. -/
def place? (shop : Workshop) (executor : Nat) : Option Place :=
  shop.executors[executor]?.map fun found => ⟨shop.desk, shop.registry, found⟩

/-- Puts an executor and what it works on back. -/
def put (shop : Workshop) (executor : Nat) (place : Place) : Workshop :=
  ⟨place.desk, place.registry, shop.executors.set executor place.executor⟩

/-- Changes an executor and what it works on. -/
def change (shop : Workshop) (executor : Nat) (change : Place → Place) : Workshop :=
  match shop.place? executor with
  | none => shop
  | some place => shop.put executor (change place)

/-- Changes the registry. -/
def changeRegistry (shop : Workshop) (change : Registry → Registry) : Workshop :=
  { shop with registry := change shop.registry }

/-- The workshop after an occurrence. -/
def step (shop : Workshop) : Occurrence → Workshop
  | .call executor purpose => shop.change executor fun place => (place.call purpose).1
  | .poll receiver executor call =>
    shop.change executor fun place => (place.turn receiver call).getD place
  | .abandon executor call => shop.change executor (·.abandon call)
  | .destroy executor => shop.change executor (·.destroy)
  | .acquire language launcher timeout =>
    shop.changeRegistry fun registry => (registry.acquire language launcher timeout).1
  | .start number =>
    shop.changeRegistry fun registry => (registry.turnStart number).getD registry
  | .collect language start =>
    shop.changeRegistry fun registry =>
      match registry.outcome? start with
      | none => registry
      | some outcome => registry.collect language start outcome
  | .expire start => shop.changeRegistry (·.expire start)
  | .shutdown language => shop.changeRegistry fun registry => (registry.shutdown language).1
  | .shutdownAll => shop.changeRegistry Registry.shutdownAll
  | .launched handle outcome =>
    shop.changeRegistry (·.modifyHandle handle fun worker =>
      if worker.relay = .launching then worker.launched outcome else worker)
  | .request handle =>
    shop.changeRegistry (·.modifyHandle handle fun worker => worker.turnRequest.getD worker)
  | .message handle =>
    shop.changeRegistry (·.modifyHandle handle fun worker => worker.turnMessage.getD worker)
  | .interpreter handle act =>
    shop.changeRegistry (·.modifyHandle handle fun worker =>
      { worker with interpreter := worker.interpreter.map (·.act act) })
  | .drop handle => shop.changeRegistry (·.modifyHandle handle Handle.drop)
  | .desk desk => { shop with desk }

/-- The workshop after several occurrences. -/
def run (shop : Workshop) (occurrences : List Occurrence) : Workshop :=
  occurrences.foldl step shop

@[simp] theorem run_nil (shop : Workshop) : shop.run [] = shop := rfl

@[simp] theorem run_cons (shop : Workshop) (occurrence : Occurrence)
    (occurrences : List Occurrence) :
    shop.run (occurrence :: occurrences) = (shop.step occurrence).run occurrences := rfl

end Workshop

end Polyglot.Worker
