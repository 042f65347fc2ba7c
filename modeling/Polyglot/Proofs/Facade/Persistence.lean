import Polyglot.Proofs.Facade.Interleaving
import Polyglot.Proofs.Host.Effects
import Polyglot.Proofs.Sandbox.Destruction
import Polyglot.Proofs.Worker.Destruction

/-!
# What a host keeps

No operation takes an executor away from a host or brings a destroyed one back, and
destroying an executor that a host has destroys it.
-/

namespace Polyglot

namespace Worker.Place

/-- A new call does not bring a destroyed executor back, and neither does anything
else. -/
theorem destroyed_call (place : Place) (purpose : Purpose) :
    (place.call purpose).1.executor.destroyed = place.executor.destroyed := by
  obtain ⟨phase, called⟩ := executor_call place purpose
  rw [called]

theorem destroyed_turn {place after : Place} {receiver : String → Option Nat} {number : Nat}
    (turned : place.turn receiver number = some after) :
    after.executor.destroyed = place.executor.destroyed := by
  obtain ⟨-, same | ⟨phase, moved⟩⟩ := executor_turn turned
  · rw [same]
  · rw [moved]
    rfl

theorem destroyed_abandon (place : Place) (number : Nat) :
    (place.abandon number).executor.destroyed = place.executor.destroyed := by
  rcases executor_abandon place number with same | moved
  · rw [same]
  · rw [moved]
    rfl

theorem destroyed_destroy (place : Place) : place.destroy.executor.destroyed = true := by
  simp only [destroy]
  split
  · assumption
  · rfl

/-- Only who destroys an executor does so. -/
theorem Does.destroyed_eq {place next : Place} (does : place.Does False next) :
    next.executor.destroyed = place.executor.destroyed := by
  cases does with
  | call purpose => exact place.destroyed_call purpose
  | turn turned => exact destroyed_turn turned
  | abandon number => exact place.destroyed_abandon number
  | destroy may => exact may.elim

/-- An executor that was destroyed stays so. -/
theorem Does.destroyed {destroys : Prop} {place next : Place} (does : place.Does destroys next)
    (destroyed : place.executor.destroyed = true) : next.executor.destroyed = true := by
  cases does with
  | call purpose => rw [destroyed_call, destroyed]
  | turn turned => rw [destroyed_turn turned, destroyed]
  | abandon number => rw [destroyed_abandon, destroyed]
  | destroy may => exact place.destroyed_destroy

end Worker.Place

namespace Toolchain.Executor

theorem destroyed_turn {executor after : Executor} {number : Nat}
    (turned : executor.turn number = some after) : after.destroyed = executor.destroyed := by
  simp only [turn] at turned
  obtain ⟨phase, -, turned⟩ := Option.bind_eq_some_iff.mp turned
  split at turned
  · split at turned
    · cases turned
      rfl
    · contradiction
  · contradiction

theorem destroyed_abandon (executor : Executor) (number : Nat) :
    (executor.abandon number).destroyed = executor.destroyed := by
  simp only [abandon]
  split <;> rfl

/-- An executor that was destroyed stays so. -/
theorem Moves.destroyed {executor after : Executor} (moves : executor.Moves after)
    (destroyed : executor.destroyed = true) : after.destroyed = true := by
  cases moves with
  | stays => exact destroyed
  | call phase => exact destroyed
  | turn turned => rw [destroyed_turn turned, destroyed]
  | abandon number => rw [destroyed_abandon, destroyed]
  | destroy => rfl

end Toolchain.Executor

/-! ## Lists that keep what they have -/

/-- Whatever a list has another has at the same place, up to a relation. -/
def Grows {α : Type} (related : α → α → Prop) (before after : List α) : Prop :=
  ∀ (number : Nat) (old : α), before[number]? = some old →
    ∃ new, after[number]? = some new ∧ related old new

namespace Grows

variable {α : Type} {related : α → α → Prop} {before middle after : List α}

theorem refl (reflexive : ∀ item, related item item) (list : List α) :
    Grows related list list :=
  fun _ old found => ⟨old, found, reflexive old⟩

theorem trans (transitive : ∀ {first second third}, related first second →
    related second third → related first third) (left : Grows related before middle)
    (right : Grows related middle after) : Grows related before after := by
  intro number old found
  obtain ⟨next, foundNext, first⟩ := left number old found
  obtain ⟨last, foundLast, second⟩ := right number next foundNext
  exact ⟨last, foundLast, transitive first second⟩

theorem append (reflexive : ∀ item, related item item) (list more : List α) :
    Grows related list (list ++ more) := by
  intro number old found
  have inside : number < list.length := (List.getElem?_eq_some_iff.mp found).1
  exact ⟨old, by rw [List.getElem?_append_left inside, found], reflexive old⟩

theorem modify (reflexive : ∀ item, related item item) (list : List α) {number : Nat}
    {change : α → α} (kept : ∀ old, list[number]? = some old → related old (change old)) :
    Grows related list (list.modify number change) := by
  intro other old found
  rw [List.getElem?_modify, found]
  by_cases same : number = other
  · subst same
    exact ⟨change old, by simp, kept old found⟩
  · exact ⟨old, by simp [same], reflexive old⟩

theorem set (reflexive : ∀ item, related item item) {list : List α} {number : Nat} {old new : α}
    (found : list[number]? = some old) (kept : related old new) :
    Grows related list (list.set number new) := by
  intro other item foundItem
  by_cases same : number = other
  · subst same
    rw [found] at foundItem
    cases foundItem
    exact ⟨new, by simp [(List.getElem?_eq_some_iff.mp found).1], kept⟩
  · exact ⟨item, by rw [List.getElem?_set_ne same, foundItem], reflexive item⟩

theorem length_le (grows : Grows related before after) : before.length ≤ after.length := by
  rcases Nat.lt_or_ge after.length before.length with shorter | longer
  · obtain ⟨new, found, -⟩ := grows after.length _ (List.getElem?_eq_getElem shorter)
    rw [List.getElem?_eq_none (Nat.le_refl _)] at found
    contradiction
  · exact longer

end Grows

namespace Host

/-- A sandbox executor stays what it is. -/
def SandboxKept (old new : Nat × Sandbox.Executor) : Prop :=
  new.1 = old.1 ∧ (old.2.isDestroyed = true → new.2.isDestroyed = true)

/-- A worker executor stays what it is. -/
def WorkerKept (old new : Nat × Worker.Executor) : Prop :=
  new.1 = old.1 ∧ (old.2.destroyed = true → new.2.destroyed = true)

/-- A toolchain executor stays what it is. -/
def ToolchainKept (old new : Toolchain.Executor) : Prop :=
  old.destroyed = true → new.destroyed = true

/-- A host keeps its executors, and those that were destroyed stay so. -/
structure Keeps (before after : Host) : Prop where
  sandboxes : Grows SandboxKept before.sandboxes after.sandboxes
  workers : Grows WorkerKept before.workers after.workers
  toolchainExecutors : Grows ToolchainKept before.toolchainExecutors after.toolchainExecutors
  registries : before.registries.length ≤ after.registries.length

theorem SandboxKept.refl (pair : Nat × Sandbox.Executor) : SandboxKept pair pair :=
  ⟨rfl, id⟩

theorem WorkerKept.refl (pair : Nat × Worker.Executor) : WorkerKept pair pair := ⟨rfl, id⟩

theorem ToolchainKept.refl (executor : Toolchain.Executor) : ToolchainKept executor executor := id

namespace Keeps

variable {host first second third : Host}

theorem refl (host : Host) : host.Keeps host where
  sandboxes := .refl SandboxKept.refl _
  workers := .refl WorkerKept.refl _
  toolchainExecutors := .refl ToolchainKept.refl _
  registries := Nat.le_refl _

theorem trans (left : first.Keeps second) (right : second.Keeps third) : first.Keeps third where
  sandboxes := left.sandboxes.trans
    (fun before after => ⟨after.1.trans before.1, after.2 ∘ before.2⟩) right.sandboxes
  workers := left.workers.trans
    (fun before after => ⟨after.1.trans before.1, after.2 ∘ before.2⟩) right.workers
  toolchainExecutors := left.toolchainExecutors.trans
    (fun before after => after ∘ before) right.toolchainExecutors
  registries := Nat.le_trans left.registries right.registries

/-- Keeping reads nothing but the executors and how many registries there are. -/
theorem of_eq (keeps : first.Keeps second) (sandboxes : third.sandboxes = second.sandboxes)
    (workers : third.workers = second.workers)
    (toolchainExecutors : third.toolchainExecutors = second.toolchainExecutors)
    (registries : third.registries = second.registries) : first.Keeps third := by
  obtain ⟨keptSandboxes, keptWorkers, keptToolchains, keptRegistries⟩ := keeps
  rw [← sandboxes] at keptSandboxes
  rw [← workers] at keptWorkers
  rw [← toolchainExecutors] at keptToolchains
  rw [← registries] at keptRegistries
  exact ⟨keptSandboxes, keptWorkers, keptToolchains, keptRegistries⟩

theorem modifyRegistry (host : Host) (number : Nat) (change : Worker.Registry → Worker.Registry) :
    host.Keeps (host.modifyRegistry number change) := by
  refine ⟨(refl host).sandboxes, (refl host).workers, (refl host).toolchainExecutors, ?_⟩
  simp [Host.modifyRegistry]

theorem setSandbox {number launcher : Nat} {old new : Sandbox.Executor}
    (found : host.sandboxes[number]? = some (launcher, old))
    (kept : old.isDestroyed = true → new.isDestroyed = true) :
    host.Keeps (host.setSandbox number new) := by
  refine ⟨.modify SandboxKept.refl _ ?_, (refl host).workers, (refl host).toolchainExecutors,
    Nat.le_refl _⟩
  intro pair foundPair
  rw [found] at foundPair
  cases foundPair
  exact ⟨rfl, kept⟩

theorem setWorkerPlace {number registry : Nat} {place next : Worker.Place}
    (found : host.workerPlace? number = some (registry, place))
    (kept : place.executor.destroyed = true → next.executor.destroyed = true) :
    host.Keeps (host.setWorkerPlace number registry next) := by
  simp only [workerPlace?] at found
  obtain ⟨⟨owner, executor⟩, foundExecutor, found⟩ := Option.bind_eq_some_iff.mp found
  obtain ⟨worked, -, found⟩ := Option.bind_eq_some_iff.mp found
  cases found
  refine ⟨(refl host).sandboxes, .set WorkerKept.refl foundExecutor ⟨rfl, kept⟩,
    (refl host).toolchainExecutors, ?_⟩
  simp [Host.setWorkerPlace, Host.modifyRegistry]

end Keeps

/-! ## Operations of a host -/

section Operations

variable (host : Host) (executor : Executor) (purpose : Purpose) (pending : Pending)

/-- A host keeps its executors whatever one of them does. -/
theorem Effect.keeps {destroys : Prop} {host after : Host} (effect : host.Effect destroys after) :
    host.Keeps after := by
  cases effect with
  | aside log compilers => exact (Keeps.refl host).of_eq rfl rfl rfl rfl
  | @sandbox number launcher sandbox next desk found event isHosted acts =>
      refine (Keeps.setSandbox found fun destroyed => ?_).of_eq rfl rfl rfl rfl
      have stepped := Sandbox.Place.isDestroyed_step ⟨host.desk, sandbox⟩ destroyed event
      rwa [acts] at stepped
  | release found =>
      refine Keeps.setSandbox found fun destroyed => ?_
      simpa [Sandbox.Executor.isDestroyed] using destroyed
  | worker at_ does => exact Keeps.setWorkerPlace at_ does.destroyed
  | toolchain found moves log toolchains =>
      exact ⟨(Keeps.refl host).sandboxes, (Keeps.refl host).workers,
        .set ToolchainKept.refl found moves.destroyed, Nat.le_refl _⟩

/-- A host keeps its executors when one is called. -/
theorem keeps_call : host.Keeps (host.call executor purpose).1 :=
  (host.effect_call executor purpose).keeps

/-- A host keeps its executors when a call takes a turn. -/
theorem keeps_turnCall {receiver : String → Option Nat} {after : Host}
    (turned : turnCall receiver host pending = some after) : host.Keeps after :=
  (host.effect_turnCall pending turned).keeps

/-- A host keeps its executors when the caller of one goes away. -/
theorem keeps_abandon : host.Keeps (host.abandon pending) :=
  (host.effect_abandon pending).keeps

/-- A host keeps its executors when one of them is destroyed. -/
theorem keeps_destroy : host.Keeps (host.destroy executor) :=
  (host.effect_destroy executor).keeps

/-- A host keeps an executor that nobody has any more. -/
theorem keeps_drop : host.Keeps (host.drop executor) :=
  (host.effect_drop executor).keeps

theorem keeps_provide (broker : Option Nat) (value : String) :
    host.Keeps (host.provide broker value).1 := by
  cases broker with
  | none => exact .refl host
  | some broker => exact (Keeps.refl host).of_eq rfl rfl rfl rfl

theorem keeps_deliver (launcher : Nat) (launching : Launching) {awaiting : Awaiting}
    (waits : (host.launcherOf? awaiting).isSome = true) :
    host.Keeps (host.deliver launcher launching awaiting) := by
  cases awaiting with
  | call executor call =>
      exact (host.effect_deliver executor launcher launching waits).keeps
  | relay registry handle =>
      exact (Keeps.modifyRegistry host registry _).of_eq rfl rfl rfl rfl

end Operations

/-! ## Executors that a host has -/

/-- A host has an executor with what it works on. -/
def Has (host : Host) : Executor → Prop
  | .sandboxed number => number < host.sandboxes.length
  | .worker number => ∃ registry executor, host.workers[number]? = some (registry, executor) ∧
      registry < host.registries.length
  | .compiled executor =>
    ∀ number, executor.delegate = some number → number < host.sandboxes.length
  | .toolchain number => number < host.toolchainExecutors.length

/-- The sandbox executor of a number was destroyed. -/
def IsSandboxDestroyed (host : Host) (number : Nat) : Prop :=
  ∃ launcher sandbox, host.sandboxes[number]? = some (launcher, sandbox) ∧
    sandbox.isDestroyed = true

/-- An executor was destroyed; one that only compiles has nothing to destroy. -/
def IsDestroyed (host : Host) : Executor → Prop
  | .sandboxed number => host.IsSandboxDestroyed number
  | .worker number => ∃ registry executor, host.workers[number]? = some (registry, executor) ∧
      executor.destroyed = true
  | .compiled executor => ∀ number, executor.delegate = some number → host.IsSandboxDestroyed number
  | .toolchain number => ∃ executor, host.toolchainExecutors[number]? = some executor ∧
      executor.destroyed = true

section Destroyed

variable {before after host : Host} {executor : Executor}

theorem Keeps.has (keeps : before.Keeps after) (has : before.Has executor) :
    after.Has executor := by
  cases executor with
  | sandboxed number => exact Nat.lt_of_lt_of_le has keeps.sandboxes.length_le
  | worker number =>
      obtain ⟨registry, worker, found, known⟩ := has
      obtain ⟨⟨owner, next⟩, foundNext, same, -⟩ := keeps.workers number _ found
      obtain rfl : owner = registry := same
      exact ⟨owner, next, foundNext, Nat.lt_of_lt_of_le known keeps.registries⟩
  | compiled compiled =>
      intro number delegated
      exact Nat.lt_of_lt_of_le (has number delegated) keeps.sandboxes.length_le
  | toolchain number => exact Nat.lt_of_lt_of_le has keeps.toolchainExecutors.length_le

theorem Keeps.isSandboxDestroyed (keeps : before.Keeps after) {number : Nat}
    (destroyed : before.IsSandboxDestroyed number) : after.IsSandboxDestroyed number := by
  obtain ⟨launcher, sandbox, found, destroyed⟩ := destroyed
  obtain ⟨⟨owner, next⟩, foundNext, -, stays⟩ := keeps.sandboxes number _ found
  exact ⟨owner, next, foundNext, stays destroyed⟩

theorem Keeps.isDestroyed (keeps : before.Keeps after) (destroyed : before.IsDestroyed executor) :
    after.IsDestroyed executor := by
  cases executor with
  | sandboxed number => exact keeps.isSandboxDestroyed destroyed
  | worker number =>
      obtain ⟨registry, worker, found, destroyed⟩ := destroyed
      obtain ⟨⟨owner, next⟩, foundNext, -, stays⟩ := keeps.workers number _ found
      exact ⟨owner, next, foundNext, stays destroyed⟩
  | compiled compiled =>
      intro number delegated
      exact keeps.isSandboxDestroyed (destroyed number delegated)
  | toolchain number =>
      obtain ⟨owner, found, destroyed⟩ := destroyed
      obtain ⟨next, foundNext, stays⟩ := keeps.toolchainExecutors number _ found
      exact ⟨next, foundNext, stays destroyed⟩

theorem isSandboxDestroyed_destroySandbox {number : Nat} (has : number < host.sandboxes.length) :
    (host.destroySandbox number).IsSandboxDestroyed number := by
  obtain ⟨⟨launcher, sandbox⟩, found⟩ : ∃ pair, host.sandboxes[number]? = some pair :=
    ⟨_, List.getElem?_eq_getElem has⟩
  refine ⟨launcher, (sandbox.destroy host.desk).2, ?_,
    Sandbox.Place.isDestroyed_destroy ⟨host.desk, sandbox⟩⟩
  simp [destroySandbox, found, setSandbox]

/-- Destroying an executor that a host has destroys it. -/
theorem isDestroyed_destroy (has : host.Has executor) :
    (host.destroy executor).IsDestroyed executor := by
  cases executor with
  | sandboxed number => exact isSandboxDestroyed_destroySandbox has
  | worker number =>
      obtain ⟨registry, worker, found, known⟩ := has
      have place : host.workerPlace? number =
          some (registry, ⟨host.desk, host.registries[registry], worker⟩) := by
        simp [workerPlace?, found, List.getElem?_eq_getElem known]
      refine ⟨registry, (Worker.Place.destroy ⟨host.desk, host.registries[registry],
        worker⟩).executor, ?_, Worker.Place.destroyed_destroy _⟩
      have inside : number < host.workers.length := (List.getElem?_eq_some_iff.mp found).1
      simp [destroy, changeWorker, place, setWorkerPlace, inside]
  | compiled compiled =>
      intro number delegated
      simp only [destroy, delegated]
      exact isSandboxDestroyed_destroySandbox (has number delegated)
  | toolchain number =>
      have found := List.getElem?_eq_getElem has
      refine ⟨host.toolchainExecutors[number].destroy, ?_, rfl⟩
      simp [destroy, found]

end Destroyed

end Host

end Polyglot
