import Polyglot.Proofs.Facade.Persistence
import Polyglot.Proofs.Host.Endings
import Polyglot.Proofs.Sandbox.Serving
import Polyglot.Proofs.Worker.Serving

/-!
# The brokers of a host

An executor gets its broker when it is made and has it for good.  So executors with
different brokers never get in each other's way.
-/

namespace Polyglot

/-- Nothing can be given to an executor. -/
def Executor.IsDeaf (executor : Executor) : Prop :=
  executor.sandbox? = none ∧ ∀ number, executor ≠ .worker number

namespace Sandbox.Place

/-- Whatever happens to an executor, it has its broker for good. -/
theorem broker_step (place : Place) (event : Event) :
    (place.step event).executor.broker = place.executor.broker := by
  cases event with
  | call purpose =>
      exact (Executor.dealt_call (fun _ => none) place.executor place.desk purpose).broker
  | poll receiver number =>
      simp only [step]
      cases turned : place.executor.turn receiver place.desk number with
      | none => rfl
      | some after => exact (Executor.dealt_turn receiver turned).broker
  | launched number outcome =>
      simp only [step]
      split
      · rename_i launching
        exact (Executor.dealt_launched (fun _ => none) (isInside_of_isLaunching launching)
          place.desk _ outcome).broker
      · rfl
  | abandon number => exact (place.executor.abandon_frame place.desk number).1
  | destroy =>
      cases gone : place.executor.isDestroyed with
      | true => simp [step, Executor.destroy, gone]
      | false =>
          obtain ⟨-, -, broker, -⟩ := Executor.destroy_of_stands gone place.desk
          exact broker
  | context number act => rfl
  | desk desk => rfl

/-- Nothing that a host does with an executor changes which hook a broker tells. -/
theorem hookOf?_step (place : Place) {destroys : Prop} {event : Event}
    (isHosted : event.IsHosted destroys) (number : Nat) :
    (place.step event).desk.hookOf? number = place.desk.hookOf? number := by
  cases event with
  | call purpose =>
      exact (Executor.dealt_call (fun _ => none) place.executor place.desk
        purpose).deals.hookOf? number
  | poll receiver caller =>
      simp only [step]
      cases turned : place.executor.turn receiver place.desk caller with
      | none => rfl
      | some after => exact (Executor.dealt_turn receiver turned).deals.hookOf? number
  | launched caller outcome =>
      simp only [step]
      split
      · rename_i launching
        exact (Executor.dealt_launched (fun _ => none) (isInside_of_isLaunching launching)
          place.desk _ outcome).deals.hookOf? number
      · rfl
  | abandon caller =>
      simp only [step, Executor.abandon]
      split
      · rfl
      · simp only [Desk.abandonAll, Desk.hookOf?_modify]
  | destroy =>
      cases gone : place.executor.isDestroyed with
      | true => simp [step, Executor.destroy, gone]
      | false =>
          obtain ⟨desk, -⟩ := Executor.destroy_of_stands gone place.desk
          simp only [step, desk, Desk.hookOf?_modify]
  | context caller act => rfl
  | desk desk => exact isHosted.elim

/-- Only who destroys an executor does so. -/
theorem isDestroyed_step_eq (place : Place) {event : Event} (isHosted : event.IsHosted False) :
    (place.step event).executor.isDestroyed = place.executor.isDestroyed := by
  cases event with
  | call purpose =>
      exact (Executor.dealt_call (fun _ => none) place.executor place.desk purpose).destroyed
  | poll receiver number =>
      simp only [step]
      cases turned : place.executor.turn receiver place.desk number with
      | none => rfl
      | some after => exact (Executor.dealt_turn receiver turned).destroyed
  | launched number outcome =>
      simp only [step]
      split
      · rename_i launching
        exact (Executor.dealt_launched (fun _ => none) (isInside_of_isLaunching launching)
          place.desk _ outcome).destroyed
      · rfl
  | abandon number => exact (place.executor.abandon_frame place.desk number).2.1
  | destroy => exact isHosted.elim
  | context number act => rfl
  | desk desk => exact isHosted.elim

end Sandbox.Place

/-- Whatever a worker executor does, it has its broker for good. -/
theorem Worker.Place.Does.keepsBroker {destroys : Prop} {place next : Place}
    (does : place.Does destroys next) : place.KeepsBroker next := by
  cases does with
  | call purpose => exact place.keepsBroker_call purpose
  | turn turned => exact keepsBroker_turn turned
  | abandon number => exact place.keepsBroker_abandon number
  | destroy may => exact place.keepsBroker_destroy

namespace Host

/-- No executor of a host gets another broker or loses the one that it has. -/
structure KeepsBrokers (before after : Host) : Prop where
  hooks : ∀ number, after.desk.hookOf? number = before.desk.hookOf? number
  brokers : ∀ executor, after.brokerOf? executor = before.brokerOf? executor

/-- Every sandbox executor of a host has its broker at the desk. -/
def IsFurnished (host : Host) : Prop :=
  ∀ number broker, host.brokerOf? (.sandboxed number) = some broker →
    (host.desk.broker? broker).isSome = true

/-- No other sandbox executor has the broker of an executor. -/
def IsLone (host : Host) (executor : Executor) : Prop :=
  ∀ number broker, host.brokerOf? executor = some broker →
    host.brokerOf? (.sandboxed number) = some broker → executor.sandbox? = some number

variable {host middle after : Host} {executor : Executor} {number registry : Nat}

/-! ## The broker of an executor -/

theorem brokerOf?_of_sandbox? (host : Host) (isSandbox : executor.sandbox? = some number) :
    host.brokerOf? executor = host.brokerOf? (.sandboxed number) := by
  cases executor with
  | sandboxed same => cases isSandbox; rfl
  | compiled compiled =>
      rw [Executor.sandbox?] at isSandbox
      simp only [brokerOf?, isSandbox, Option.bind_some]
  | worker other => contradiction
  | toolchain other => contradiction

theorem brokerOf?_of_found {launcher : Nat} {sandbox : Sandbox.Executor}
    (isSandbox : executor.sandbox? = some number)
    (found : host.sandboxes[number]? = some (launcher, sandbox)) :
    host.brokerOf? executor = some sandbox.broker := by
  rw [brokerOf?_of_sandbox? host isSandbox]
  simp only [brokerOf?, found, Option.map_some]

theorem brokerOf?_of_isDeaf (host : Host) (isDeaf : executor.IsDeaf) :
    host.brokerOf? executor = none := by
  cases executor with
  | sandboxed same => exact absurd isDeaf.1 (by simp [Executor.sandbox?])
  | compiled compiled =>
      have alone : compiled.delegate = none := isDeaf.1
      simp only [brokerOf?, alone, Option.bind_none]
  | worker other => exact absurd rfl (isDeaf.2 other)
  | toolchain other => rfl

namespace KeepsBrokers

/-- Every executor is of a kind of its own, so it is enough to look at two kinds. -/
theorem of_kinds (hooks : ∀ number, after.desk.hookOf? number = host.desk.hookOf? number)
    (sandboxes : ∀ number,
      after.brokerOf? (.sandboxed number) = host.brokerOf? (.sandboxed number))
    (workers : ∀ number, after.brokerOf? (.worker number) = host.brokerOf? (.worker number)) :
    host.KeepsBrokers after where
  hooks := hooks
  brokers executor := by
    cases executor with
    | sandboxed number => exact sandboxes number
    | worker number => exact workers number
    | compiled compiled => exact Option.bind_congr fun number _ => sandboxes number
    | toolchain number => rfl

/-- Nothing happens to the executors that have brokers. -/
theorem of_eq (hooks : ∀ number, after.desk.hookOf? number = host.desk.hookOf? number)
    (sandboxes : after.sandboxes = host.sandboxes) (workers : after.workers = host.workers) :
    host.KeepsBrokers after :=
  .of_kinds hooks (fun _ => by simp only [brokerOf?, sandboxes])
    fun _ => by simp only [brokerOf?, workers]

theorem refl (host : Host) : host.KeepsBrokers host := .of_eq (fun _ => rfl) rfl rfl

theorem trans (first : host.KeepsBrokers middle) (second : middle.KeepsBrokers after) :
    host.KeepsBrokers after where
  hooks number := (second.hooks number).trans (first.hooks number)
  brokers executor := (second.brokers executor).trans (first.brokers executor)

/-- One sandbox executor does something. -/
theorem setSandbox {launcher : Nat} {old new : Sandbox.Executor}
    (found : host.sandboxes[number]? = some (launcher, old)) (broker : new.broker = old.broker)
    (hooks : ∀ number, after.desk.hookOf? number = host.desk.hookOf? number)
    (sandboxes : after.sandboxes = (host.setSandbox number new).sandboxes)
    (workers : after.workers = host.workers) : host.KeepsBrokers after := by
  refine .of_kinds hooks (fun other => ?_) fun other => by simp only [brokerOf?, workers]
  simp only [brokerOf?, sandboxes, Host.setSandbox, List.getElem?_modify]
  by_cases same : number = other
  · subst same
    simp [found, broker]
  · simp [same]

/-- One worker executor does something. -/
theorem setWorkerPlace {place next : Worker.Place}
    (at_ : host.workerPlace? number = some (registry, place)) (keeps : place.KeepsBroker next) :
    host.KeepsBrokers (host.setWorkerPlace number registry next) := by
  have next' : (host.setWorkerPlace number registry next).workers[number]? =
      some (registry, next.executor) := (workers_setWorkerPlace at_).1
  simp only [workerPlace?] at at_
  obtain ⟨⟨owner, worker⟩, found, at_⟩ := Option.bind_eq_some_iff.mp at_
  obtain ⟨lent, kept, at_⟩ := Option.bind_eq_some_iff.mp at_
  cases at_
  refine .of_kinds keeps.hooks (fun _ => rfl) fun other => ?_
  by_cases same : number = other
  · subst same
    simp only [brokerOf?, next', found, Option.map_some, keeps.broker]
  · simp [brokerOf?, Host.setWorkerPlace, same]

/-- Where every sandbox executor had its broker it has it still. -/
theorem isFurnished (keeps : host.KeepsBrokers after) (furnished : host.IsFurnished) :
    after.IsFurnished := by
  intro number broker isBroker
  rw [keeps.brokers] at isBroker
  rw [← Desk.isSome_hookOf?, keeps.hooks, Desk.isSome_hookOf?]
  exact furnished number broker isBroker

theorem isLone (keeps : host.KeepsBrokers after) (lone : host.IsLone executor) :
    after.IsLone executor := by
  intro number broker isBroker isOther
  rw [keeps.brokers] at isBroker isOther
  exact lone number broker isBroker isOther

end KeepsBrokers

/-! ## Operations of a host -/

/-- Whatever one executor does, no executor gets another broker. -/
theorem Effect.keepsBrokers {destroys : Prop} (effect : host.Effect destroys after) :
    host.KeepsBrokers after := by
  cases effect with
  | aside log compilers => exact .of_eq (fun _ => rfl) rfl rfl
  | @sandbox number launcher sandbox next desk found event isHosted acts =>
      have broker := Sandbox.Place.broker_step ⟨host.desk, sandbox⟩ event
      have hooks := Sandbox.Place.hookOf?_step ⟨host.desk, sandbox⟩ isHosted
      rw [acts] at broker hooks
      exact .setSandbox found broker hooks rfl rfl
  | @release number launcher sandbox found =>
      exact .setSandbox found sandbox.broker_release (fun _ => rfl) rfl rfl
  | worker at_ does => exact .setWorkerPlace at_ does.keepsBroker
  | toolchain found moves log toolchains => exact .of_eq (fun _ => rfl) rfl rfl

section Operations

variable (host : Host)

theorem keepsBrokers_provide (broker : Option Nat) (value : String) :
    host.KeepsBrokers (host.provide broker value).1 := by
  cases broker with
  | none => exact .refl host
  | some broker => exact .of_eq (fun other => host.desk.hookOf?_provide broker other value) rfl rfl

/-- Whoever waits for a launch learns of its outcome. -/
theorem keepsBrokers_deliver (launcher : Nat) (launching : Launching) {awaiting : Awaiting}
    (waits : (host.launcherOf? awaiting).isSome = true) :
    host.KeepsBrokers (host.deliver launcher launching awaiting) := by
  cases awaiting with
  | call executor call => exact (host.effect_deliver executor launcher launching waits).keepsBrokers
  | relay registry handle => exact .of_eq (fun _ => rfl) rfl rfl

/-- Whatever stands behind the executors moves. -/
theorem keepsBrokers_move (event : Facade.Event) :
    host.KeepsBrokers (Facade.World.move host event) := by
  cases event with
  | launched launcher launching awaiting =>
      simp only [Facade.World.move]
      split
      · rename_i waits
        exact host.keepsBrokers_deliver launcher launching waits
      · exact .refl host
  | context executor context act =>
      refine .of_kinds (fun _ => rfl) (fun other => ?_) fun _ => rfl
      simp only [Facade.World.move, brokerOf?, List.getElem?_modify]
      by_cases same : executor = other
      · subst same
        simp [Function.comp_def]
      · simp [same]
  | _ => exact .of_eq (fun _ => rfl) rfl rfl

end Operations

end Host

end Polyglot
