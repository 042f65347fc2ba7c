import Polyglot.Proofs.Facade.Interleaving
import Polyglot.Proofs.Host.Calls

/-!
# Ledgers

A ledger is kept beside a world: who submitted which code to which context, and what each
context has emitted for which of its runs.  The contexts of the facade are taken to handle
their runs in order, and to emit output and requests for input and then one last message
for each; an event in which one would do anything else does not happen.
-/

namespace Polyglot

/-- Submissions are what was queued for each context in addition. -/
theorem Posts.eq_post {Place : Type} {owner : Nat} {before after : Place → List String}
    {accounts accounts' : Place → Account} (posts : Posts owner before accounts after accounts')
    (place : Place) :
    accounts' place =
      (accounts place).post owner ((after place).drop (before place).length) := by
  obtain ⟨codes, submitted, posted⟩ := posts place
  rw [posted, submitted, List.drop_left]

namespace Facade

/-- The sandbox executor in which the request of a future runs code. -/
def Future.sandbox? : Future → Option Nat
  | .polled _ request => request.executor?.bind Executor.sandbox?
  | .created _ | .dropped _ => none

/-- The request whose code may be submitted in an event: one that is polled, or one whose
executor has got the context that it waited for. -/
def World.author? (world : World) : Event → Option Nat
  | .poll _ number => some number
  | .launched _ _ (.call executor _) => world.futures.findIdx? (·.sandbox? = some executor)
  | _ => none

/-- Why a launch failed that ends in an event. -/
def Event.failures : Event → List TransportError
  | .launched _ launching _ =>
    match launching.outcome with
    | .error cause => [cause]
    | .ok () => []
  | _ => []

/-- A world with what is known of its contexts. -/
structure Chronicle where
  world : World
  /-- How many sandbox executors there were before the facade. -/
  founded : Nat
  accounts : Seat → Account := fun _ => {}
  /-- Why launches have failed. -/
  failures : List TransportError := []

namespace Chronicle

/-- A facade that nobody has made a request to, with a registry of its own. -/
def fresh (host : Host) (facade : Facade) : Chronicle where
  world := .fresh host facade
  founded := host.sandboxes.length

/-- Whether a context is one of the facade's. -/
def covers (chronicle : Chronicle) : Seat → Bool
  | .sandbox executor _ => chronicle.founded ≤ executor
  | .interpreter registry _ => registry = chronicle.world.facade.registry

/-- Whether the contexts of the facade keep to their order in an event. -/
def permits (chronicle : Chronicle) : Event → Bool
  | .context executor context act =>
    !chronicle.covers (.sandbox executor context) ||
      (chronicle.world.host.sandboxLink? executor context).all fun link =>
        (chronicle.accounts (.sandbox executor context)).allows SandboxMessage.utterance link act
  | .interpreter registry handle act =>
    !chronicle.covers (.interpreter registry handle) ||
      (chronicle.world.host.interpreterLink? registry handle).all fun link =>
        (chronicle.accounts (.interpreter registry handle)).allows WorkerMessage.utterance link act
  | _ => true

/-- The account of a context after an event. -/
def accountAfter (chronicle : Chronicle) (event : Event) (seat : Seat) : Account :=
  let account := chronicle.accounts seat
  match event with
  | .context executor context act =>
    if seat = .sandbox executor context then
      (chronicle.world.host.sandboxLink? executor context).elim account
        (account.act HostMessage.isRun SandboxMessage.utterance · act)
    else account
  | .interpreter registry handle act =>
    if seat = .interpreter registry handle then
      (chronicle.world.host.interpreterLink? registry handle).elim account
        (account.act InterpreterRequest.isRun WorkerMessage.utterance · act)
    else account
  | event =>
    (chronicle.world.author? event).elim account fun owner =>
      account.post owner (((chronicle.world.step event).host.codes seat).drop
        (chronicle.world.host.codes seat).length)

/-- The chronicle after an event. -/
def step (chronicle : Chronicle) (event : Event) : Chronicle :=
  if chronicle.permits event then
    { world := chronicle.world.step event
      founded := chronicle.founded
      accounts := chronicle.accountAfter event
      failures := chronicle.failures ++ event.failures }
  else chronicle

/-- The chronicle after several events. -/
def run (chronicle : Chronicle) (events : List Event) : Chronicle := events.foldl step chronicle

@[simp] theorem run_nil (chronicle : Chronicle) : chronicle.run [] = chronicle := rfl

@[simp] theorem run_cons (chronicle : Chronicle) (event : Event) (events : List Event) :
    chronicle.run (event :: events) = (chronicle.step event).run events := rfl

/-- Nothing is taken back from an account. -/
theorem extends_accountAfter (chronicle : Chronicle) (event : Event) (seat : Seat) :
    (chronicle.accounts seat).Extends (chronicle.accountAfter event seat) := by
  have post (event : Event) : (chronicle.accounts seat).Extends
      ((chronicle.world.author? event).elim (chronicle.accounts seat) fun owner =>
        (chronicle.accounts seat).post owner
          (((chronicle.world.step event).host.codes seat).drop
            (chronicle.world.host.codes seat).length)) := by
    cases chronicle.world.author? event with
    | none => exact .refl _
    | some owner => exact Account.extends_post _ _ _
  cases event with
  | context executor context act =>
      simp only [accountAfter]
      split
      · cases chronicle.world.host.sandboxLink? executor context with
        | none => exact .refl _
        | some link => exact Account.extends_act _ _ _ _ _
      · exact .refl _
  | interpreter registry handle act =>
      simp only [accountAfter]
      split
      · cases chronicle.world.host.interpreterLink? registry handle with
        | none => exact .refl _
        | some link => exact Account.extends_act _ _ _ _ _
      · exact .refl _
  | make asked => exact .refl _
  | poll receiver number => exact post (.poll receiver number)
  | drop number => exact .refl _
  | provide value => exact .refl _
  | onInput callback => exact .refl _
  | destroy => exact .refl _
  | launched launcher launching awaiting => exact post (.launched launcher launching awaiting)
  | request registry handle => exact .refl _
  | message registry handle => exact .refl _
  | expire registry start => exact .refl _
  | release registry handle => exact .refl _

/-- What a request submits is to its account. -/
theorem accountAfter_of_posts {chronicle : Chronicle} {event : Event} {owner : Nat}
    {accounts : Seat → Account} (author : chronicle.world.author? event = some owner)
    (posts : Posts owner chronicle.world.host.codes chronicle.accounts
      (chronicle.world.step event).host.codes accounts) :
    chronicle.accountAfter event = accounts := by
  funext seat
  rw [posts.eq_post seat]
  cases event with
  | poll receiver number => simp only [accountAfter, author, Option.elim_some]
  | launched launcher launching awaiting => simp only [accountAfter, author, Option.elim_some]
  | _ => contradiction

end Chronicle

end Facade

end Polyglot
