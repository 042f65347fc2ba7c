import Polyglot.Proofs.Facade.Withdrawal

/-!
# Input that is given to a facade

A value that is given to a facade answers the oldest unanswered input request of the
request in flight.  Where there is none, it is as if the value had not been given: neither
the request in flight nor a later one ever finds it.
-/

namespace Polyglot.Facade.World

/-- Whether a value that is given to the facade is accepted. -/
def accepts (world : World) (value : String) : Bool :=
  (world.host.provide (world.facade.broker? world.host) value).2

/-- The world after a value has come for a ticket. -/
def answering (world : World) (broker ticket : Nat) (value : String) : World :=
  { world with host := { world.host with
      desk := world.host.desk.modify broker (·.answering ticket value) } }

/-- The request in flight after some events has an input request that no value has come for
and that was not withdrawn. -/
def Awaits (start : World) (events : List Event) (broker ticket : Nat) : Prop :=
  ∃ number asked request executor pending,
    (start.run events).futures[number]? = some (.polled asked request) ∧
      request.standing? = some (executor, pending) ∧
        (start.run events).host.Asks executor pending broker ticket ∧
          ¬start.Withdrawn events number

/-- No input request of the request in flight is older. -/
structure AwaitsFirst (start : World) (events : List Event) (broker ticket : Nat) : Prop where
  awaits : start.Awaits events broker ticket
  first : ∀ other later, start.Awaits events other later → other = broker ∧ ticket ≤ later

/-- What becomes of a value that is given to the facade after some events. -/
structure Routes (start : World) (events : List Event) (value : String) : Prop where
  /-- It is accepted exactly if the request in flight awaits one. -/
  accepts_iff : (start.run events).accepts value = true ↔
    ∃ broker ticket, start.Awaits events broker ticket
  /-- One that is accepted answers the oldest input request, and nothing else changes. -/
  answers : (start.run events).accepts value = true →
    ∃ broker ticket, start.AwaitsFirst events broker ticket ∧
      (start.run events).step (.provide value) =
        (start.run events).answering broker ticket value
  /-- One that is not accepted is lost on whatever happens later. -/
  refused : (start.run events).accepts value = false → ∀ later,
    start.run (events ++ .provide value :: later) = start.run (events ++ later)
  /-- Before the first request, after the last one and between two, nothing is accepted. -/
  idle : (∀ number, ¬(start.run events).InFlight number) → (start.run events).accepts value = false
  /-- When the facade was destroyed, nothing is accepted until another request comes. -/
  destroyed : ∀ later,
    (∀ number, (start.run (events ++ .destroy :: later)).InFlight number →
      (start.run events).InFlight number) →
      (start.run (events ++ .destroy :: later)).accepts value = false

variable {start world : World} {events : List Event} {value : String}

/-- Where values go: nowhere, as nothing is awaited, or to a broker that the request in
flight is alone with. -/
inductive Reach (start : World) (events : List Event) : Prop where
  | nowhere (nobody : (start.run events).facade.broker? (start.run events).host = none)
      (nothing : ∀ broker ticket, ¬start.Awaits events broker ticket)
  | broker {number : Nat} {broker : Broker} {withdrawn : Bool} {tickets : List Nat}
      (isBroker : (start.run events).facade.broker? (start.run events).host = some number)
      (found : (start.run events).host.desk.broker? number = some broker)
      (serves : broker.Serves withdrawn tickets)
      (awaits : ∀ other ticket, start.Awaits events other ticket ↔
        other = number ∧ broker.ticket ticket = .waiting)

/-- A request in flight is served by the broker that values go to, if it has one. -/
theorem Tidy.reach (tidy : start.Tidy) (unbegun : ∀ number, ¬start.InFlight number)
    (events : List Event) : start.Reach events := by
  have later := tidy.run events
  cases later.sound.standing with
  | idle nobody running armed =>
      refine .nowhere (by rw [Facade.broker?, armed, Option.bind_none]) ?_
      rintro broker ticket ⟨number, asked, request, executor, pending, found, isStanding, -⟩
      exact nobody number ⟨_, found, (Request.executor?_of_standing? isStanding).1⟩
  | @busy number asked request found inFlight alone running armed =>
      obtain ⟨executor, pending, isStanding⟩ := Request.exists_standing inFlight
      have isExecutor := (Request.executor?_of_standing? isStanding).2
      have same : (start.run events).facade.broker? (start.run events).host =
          (start.run events).host.brokerOf? executor := by
        rw [Facade.broker?, armed, isExecutor, Option.bind_some]
      -- Whatever is awaited is awaited by the request in flight.
      have only {broker ticket : Nat} (awaits : start.Awaits events broker ticket) :
          (start.run events).host.Asks executor pending broker ticket ∧
            ¬start.Withdrawn events number := by
        obtain ⟨other, _, next, owner, call, isFound, isNext, asks, stands⟩ := awaits
        obtain rfl := alone other ⟨_, isFound, (Request.executor?_of_standing? isNext).1⟩
        cases found.symm.trans isFound
        cases isStanding.symm.trans isNext
        exact ⟨asks, stands⟩
      cases isBroker : (start.run events).host.brokerOf? executor with
      | none =>
          refine .nowhere (same.trans isBroker) fun broker ticket awaits => ?_
          have asked := (only awaits).1.isBroker
          rw [isBroker] at asked
          contradiction
      | some broker =>
          have routed := later.routed number asked request found
          have serves := routed.serves executor pending isStanding
          obtain ⟨withdrawn, ⟨kept, isKept, served⟩, -⟩ := serves.reaches isBroker
          have hears : ¬executor.IsDeaf := by
            intro isDeaf
            rw [Host.brokerOf?_of_isDeaf _ isDeaf] at isBroker
            contradiction
          have destroyed := tidy.isDestroyed_iff unbegun found isExecutor hears
          refine .broker (same.trans isBroker) isKept served fun other ticket => ?_
          rw [serves.asks_iff isBroker isKept, destroyed]
          constructor
          · intro awaits
            obtain ⟨asks, stands⟩ := only awaits
            have isSame := Option.some.inj (asks.isBroker.symm.trans isBroker)
            exact ⟨isSame, stands, isSame ▸ asks⟩
          · rintro ⟨rfl, stands, asks⟩
            exact ⟨number, asked, request, executor, pending, found, isStanding, asks, stands⟩

namespace Reach

theorem accepts_iff (reach : start.Reach events) (value : String) :
    (start.run events).accepts value = true ↔
      ∃ broker ticket, start.Awaits events broker ticket := by
  cases reach with
  | nowhere nobody nothing => simp [accepts, nobody, Host.provide, nothing]
  | broker isBroker found serves awaits =>
      simp only [accepts, isBroker, Host.provide, Desk.accepted_provide, found, Option.elim_some,
        serves.provide_iff, awaits]
      simp

/-- A value that is accepted answers the oldest input request. -/
theorem answers (reach : start.Reach events)
    (accepted : (start.run events).accepts value = true) :
    ∃ broker ticket, start.AwaitsFirst events broker ticket ∧
      (start.run events).step (.provide value) =
        (start.run events).answering broker ticket value := by
  have awaited := (reach.accepts_iff value).mp accepted
  cases reach with
  | nowhere nobody nothing =>
      obtain ⟨broker, ticket, awaits⟩ := awaited
      exact absurd awaits (nothing broker ticket)
  | @broker number kept withdrawn tickets isBroker found serves awaits =>
      obtain ⟨other, ticket, awaited⟩ := awaited
      obtain ⟨oldest, isOldest⟩ := serves.orderly.exists_oldest ((awaits other ticket).mp awaited).2
      refine ⟨number, oldest, ⟨(awaits number oldest).mpr ⟨rfl, isOldest.1⟩, ?_⟩, ?_⟩
      · intro other later awaited
        obtain ⟨same, waits⟩ := (awaits other later).mp awaited
        exact ⟨same, isOldest.2 later waits⟩
      · simp only [World.step, isBroker, Host.provide, Desk.provide_of_oldest found serves isOldest]
        rfl

/-- A value that is not accepted changes nothing. -/
theorem refused (reach : start.Reach events)
    (refused : (start.run events).accepts value = false) :
    (start.run events).step (.provide value) = start.run events := by
  have unawaited := mt (reach.accepts_iff value).mpr (by simp [refused])
  cases reach with
  | nowhere nobody nothing => simp only [World.step, nobody, Host.provide]
  | @broker number kept withdrawn tickets isBroker found serves awaits =>
      have nobody (ticket : Nat) : kept.ticket ticket ≠ .waiting := by
        intro waits
        exact unawaited ⟨number, ticket, (awaits number ticket).mpr ⟨rfl, waits⟩⟩
      simp only [World.step, isBroker, Host.provide, Desk.provide_of_nobody found serves nobody]

end Reach

end Polyglot.Facade.World
