import Polyglot.Proofs.Facade.SingleFlight
import Polyglot.Proofs.Sandbox.Refusal

/-!
# Histories of a host

Executors are made, called, destroyed and dropped in any order, calls take turns and are
given up, input is provided, and whatever stands behind the executors moves.  In each of
these every executor of the host either stays as it is or does what an executor of its
kind does, and no executor is lost.
-/

namespace Polyglot

namespace Worker.Executor

/-- An executor after something that happened to it, whatever it works on. -/
inductive Moves (executor : Executor) : Executor → Prop where
  | stays : executor.Moves executor
  | call (desk : Desk) (registry : Registry) (purpose : Purpose) :
      executor.Moves (Place.call ⟨desk, registry, executor⟩ purpose).1.executor
  | turn {desk : Desk} {registry : Registry} {receiver : String → Option Nat} {number : Nat}
      {after : Place} (turned : Place.turn receiver ⟨desk, registry, executor⟩ number = some after) :
      executor.Moves after.executor
  | abandon (desk : Desk) (registry : Registry) (number : Nat) :
      executor.Moves (Place.abandon ⟨desk, registry, executor⟩ number).executor
  | destroy (desk : Desk) (registry : Registry) :
      executor.Moves (Place.destroy ⟨desk, registry, executor⟩).executor

variable {executor after : Executor} {number other : Nat}
  {outcome : Except WorkerError (Option RunResult)}

theorem phase?_of_outcome? (ended : executor.outcome? number = some outcome) :
    executor.phase? number = some (.finished outcome) := by
  simp only [outcome?] at ended
  split at ended
  · rename_i found
    cases ended
    exact found
  · contradiction

/-- The call that moves is not one that is over. -/
theorem outcome?_setPhase (ended : executor.outcome? number = some outcome)
    (different : other ≠ number) (phase : CallPhase) :
    (executor.setPhase other phase).outcome? number = some outcome := by
  simpa [outcome?, phase?, setPhase, different] using ended

theorem ne_of_inFlight (ended : executor.outcome? number = some outcome)
    (inFlight : executor.InFlight other) : other ≠ number := by
  rintro rfl
  obtain ⟨phase, found, isInFlight⟩ := inFlight
  rw [phase?_of_outcome? ended] at found
  cases found
  contradiction

/-- A call that is over has the outcome that it has. -/
theorem Moves.outcome? (moves : executor.Moves after)
    (ended : executor.outcome? number = some outcome) : after.outcome? number = some outcome := by
  cases moves with
  | stays => exact ended
  | call desk registry purpose =>
      obtain ⟨phase, called⟩ := Place.executor_call ⟨desk, registry, executor⟩ purpose
      have inside : number < executor.calls.length := by
        have found := phase?_of_outcome? ended
        obtain ⟨call, found, -⟩ := Option.map_eq_some_iff.mp found
        exact (List.getElem?_eq_some_iff.mp found).1
      rw [called]
      simpa [Executor.outcome?, Executor.phase?, List.getElem?_append_left inside] using ended
  | turn turned =>
      obtain ⟨inFlight, same | ⟨phase, moved⟩⟩ := Place.executor_turn turned
      · rw [same]
        exact ended
      · rw [moved]
        exact outcome?_setPhase ended (ne_of_inFlight ended inFlight) phase
  | abandon desk registry other =>
      simp only [Place.abandon]
      split
      · rename_i start acquiring
        have different := ne_of_inFlight ended ⟨_, acquiring, rfl⟩
        exact outcome?_setPhase ended different _
      · rename_i handle run running
        have different := ne_of_inFlight ended ⟨_, running, rfl⟩
        split
        · exact outcome?_setPhase ended different _
        · exact outcome?_setPhase ended different _
      all_goals exact ended
  | destroy desk registry =>
      simp only [Place.destroy]
      split
      · exact ended
      · exact ended

/-- What a worker executor does moves it. -/
theorem Moves.of_does {destroys : Prop} {place next : Place} (does : place.Does destroys next) :
    place.executor.Moves next.executor := by
  cases does with
  | call purpose => exact .call place.desk place.registry purpose
  | turn turned => exact .turn turned
  | abandon number => exact .abandon place.desk place.registry number
  | destroy may => exact .destroy place.desk place.registry

end Worker.Executor

namespace Toolchain.Executor

variable {executor after : Executor} {number other : Nat}
  {outcome : Except ToolchainError (Option RunResult)}

theorem getElem?_of_outcome? (ended : executor.outcome? number = some outcome) :
    executor.calls[number]? = some (.finished outcome) := by
  simp only [outcome?] at ended
  split at ended
  · rename_i found
    cases ended
    exact found
  · contradiction

theorem outcome?_set (ended : executor.outcome? number = some outcome)
    (unended : executor.outcome? other = none) (phase : Phase) :
    Executor.outcome? { executor with calls := executor.calls.set other phase } number =
      some outcome := by
  have different : other ≠ number := by
    rintro rfl
    rw [ended] at unended
    contradiction
  simpa [outcome?, different] using ended

/-- A call that is over has the outcome that it has. -/
theorem Moves.outcome? (moves : executor.Moves after)
    (ended : executor.outcome? number = some outcome) : after.outcome? number = some outcome := by
  cases moves with
  | stays => exact ended
  | call phase =>
      have inside := (List.getElem?_eq_some_iff.mp (getElem?_of_outcome? ended)).1
      simpa [Executor.outcome?, List.getElem?_append_left inside] using ended
  | @turn other _ turned =>
      simp only [Executor.turn] at turned
      obtain ⟨phase, found, turned⟩ := Option.bind_eq_some_iff.mp turned
      split at turned
      · split at turned
        · cases turned
          exact outcome?_set ended (by simp [Executor.outcome?, found]) _
        · contradiction
      · contradiction
  | abandon other =>
      simp only [Executor.abandon]
      split
      · exact ended
      · rename_i unended
        exact outcome?_set ended (by simpa using unended) _
  | destroy => exact ended

end Toolchain.Executor

namespace Host

/-! ## Executors that do what executors do -/

/-- A sandbox executor with its launcher after something that happened at the host. -/
def SandboxMoves (old new : Nat × Sandbox.Executor) : Prop :=
  new.1 = old.1 ∧ old.2.Moves new.2

/-- A worker executor with its registry after something that happened at the host. -/
def WorkerMoves (old new : Nat × Worker.Executor) : Prop :=
  new.1 = old.1 ∧ old.2.Moves new.2

theorem SandboxMoves.refl (pair : Nat × Sandbox.Executor) : SandboxMoves pair pair :=
  ⟨rfl, .stays⟩

theorem WorkerMoves.refl (pair : Nat × Worker.Executor) : WorkerMoves pair pair := ⟨rfl, .stays⟩

/-- Every executor of a host has done what an executor of its kind does, or nothing. -/
structure Moves (before after : Host) : Prop where
  sandboxes : Grows SandboxMoves before.sandboxes after.sandboxes
  workers : Grows WorkerMoves before.workers after.workers
  toolchainExecutors :
    Grows Toolchain.Executor.Moves before.toolchainExecutors after.toolchainExecutors

namespace Moves

variable {host after : Host} {number : Nat}

/-- No executor has done anything. -/
theorem of_eq (sandboxes : after.sandboxes = host.sandboxes) (workers : after.workers = host.workers)
    (toolchainExecutors : after.toolchainExecutors = host.toolchainExecutors) :
    host.Moves after := by
  refine ⟨?_, ?_, ?_⟩
  · rw [sandboxes]
    exact .refl SandboxMoves.refl _
  · rw [workers]
    exact .refl WorkerMoves.refl _
  · rw [toolchainExecutors]
    exact .refl (fun _ => .stays) _

theorem refl (host : Host) : host.Moves host := of_eq rfl rfl rfl

/-- One sandbox executor does something, whatever becomes of the desk. -/
theorem setSandbox {launcher : Nat} {old new : Sandbox.Executor}
    (found : host.sandboxes[number]? = some (launcher, old)) (moves : old.Moves new)
    (sandboxes : after.sandboxes = (host.setSandbox number new).sandboxes)
    (workers : after.workers = host.workers)
    (toolchainExecutors : after.toolchainExecutors = host.toolchainExecutors) :
    host.Moves after := by
  have others : host.Moves { after with sandboxes := host.sandboxes } :=
    of_eq rfl workers toolchainExecutors
  refine ⟨?_, others.workers, others.toolchainExecutors⟩
  rw [sandboxes]
  refine .modify SandboxMoves.refl _ fun pair foundPair => ?_
  rw [found] at foundPair
  cases foundPair
  exact ⟨rfl, moves⟩

/-- One worker executor does something. -/
theorem setWorkerPlace {registry : Nat} {place next : Worker.Place}
    (found : host.workerPlace? number = some (registry, place))
    (moves : place.executor.Moves next.executor) :
    host.Moves (host.setWorkerPlace number registry next) := by
  simp only [workerPlace?] at found
  obtain ⟨⟨owner, executor⟩, foundExecutor, found⟩ := Option.bind_eq_some_iff.mp found
  obtain ⟨lent, -, found⟩ := Option.bind_eq_some_iff.mp found
  cases found
  have others := refl host
  exact ⟨others.sandboxes, .set WorkerMoves.refl foundExecutor ⟨rfl, moves⟩,
    others.toolchainExecutors⟩

end Moves

/-! ## Operations of a host -/

/-- Whatever one executor does, it does what an executor of its kind does. -/
theorem Effect.moves {destroys : Prop} {host after : Host} (effect : host.Effect destroys after) :
    host.Moves after := by
  cases effect with
  | aside log compilers => exact .of_eq rfl rfl rfl
  | @sandbox number launcher sandbox next desk found event isHosted acts =>
      have moves : sandbox.Moves _ := .event host.desk event
      rw [acts] at moves
      exact .setSandbox found moves rfl rfl rfl
  | release found => exact .setSandbox found .release rfl rfl rfl
  | worker at_ does => exact .setWorkerPlace at_ (.of_does does)
  | toolchain found moves log toolchains =>
      have others := Moves.refl host
      exact ⟨others.sandboxes, others.workers, .set (fun _ => .stays) found moves⟩

section Operations

variable (host : Host)

theorem moves_provide (broker : Option Nat) (value : String) :
    host.Moves (host.provide broker value).1 := by
  cases broker <;> exact .of_eq rfl rfl rfl

/-- Whoever waits for a launch learns of its outcome. -/
theorem moves_deliver (launcher : Nat) (launching : Launching) {awaiting : Awaiting}
    (waits : (host.launcherOf? awaiting).isSome = true) :
    host.Moves (host.deliver launcher launching awaiting) := by
  cases awaiting with
  | call executor call => exact (host.effect_deliver executor launcher launching waits).moves
  | relay registry handle => exact .of_eq rfl rfl rfl

/-- Whatever stands behind the executors moves. -/
theorem moves_move (event : Facade.Event) : host.Moves (Facade.World.move host event) := by
  cases event with
  | launched launcher launching awaiting =>
      simp only [Facade.World.move]
      split
      · rename_i waits
        exact host.moves_deliver launcher launching waits
      · exact .refl host
  | context executor context act =>
      have others := Moves.refl host
      refine ⟨.modify SandboxMoves.refl _ fun pair _ => ⟨rfl, ?_⟩, others.workers,
        others.toolchainExecutors⟩
      exact .event host.desk (.context context act)
  | interpreter registry handle act => exact .of_eq rfl rfl rfl
  | request registry handle => exact .of_eq rfl rfl rfl
  | message registry handle => exact .of_eq rfl rfl rfl
  | expire registry start => exact .of_eq rfl rfl rfl
  | release registry handle => exact .of_eq rfl rfl rfl
  | _ => exact .refl host

end Operations

/-! ## Histories -/

/-- Something that happens at a host. -/
inductive Happening where
  | addSandbox (hook launcher : Nat) (language : String)
  | addWorker (hook registry launcher : Nat) (language : String) (timeout : Duration)
  | addToolchain (toolchain : Nat) (language : String) (artifacts : Toolchain.Artifacts)
  /-- Somebody calls an executor. -/
  | call (executor : Executor) (purpose : Purpose)
  /-- Source text is compiled, but not run. -/
  | compile (compiler : Nat) (source : String) (options : CompilerOptions)
  /-- A call takes a turn. -/
  | turn (receiver : String → Option Nat) (pending : Pending)
  /-- The caller of a call goes away. -/
  | abandon (pending : Pending)
  | destroy (executor : Executor)
  /-- Nobody has an executor any more. -/
  | drop (executor : Executor)
  | provide (broker : Option Nat) (value : String)
  | onInput (hook : Nat) (callback : Option Callback)
  /-- What stands behind the executors moves. -/
  | behind (event : Facade.Event)

/-- The host after something has happened. -/
def step (host : Host) : Happening → Host
  | .addSandbox hook launcher language => (host.addSandbox hook launcher language).1
  | .addWorker hook registry launcher language timeout =>
    (host.addWorker hook registry launcher language timeout).1
  | .addToolchain toolchain language artifacts =>
    (host.addToolchain toolchain language artifacts).1
  | .call executor purpose => (host.call executor purpose).1
  | .compile compiler source options => (Host.compile compiler host source options).1
  | .turn receiver pending => (turnCall receiver host pending).getD host
  | .abandon pending => host.abandon pending
  | .destroy executor => host.destroy executor
  | .drop executor => host.drop executor
  | .provide broker value => (host.provide broker value).1
  | .onInput hook callback => { host with desk := host.desk.setHook hook callback }
  | .behind event => Facade.World.move host event

/-- The host after a history. -/
def run (host : Host) (history : List Happening) : Host := history.foldl step host

@[simp] theorem run_nil (host : Host) : host.run [] = host := rfl

@[simp] theorem run_cons (host : Host) (happening : Happening) (history : List Happening) :
    host.run (happening :: history) = (host.step happening).run history := rfl

/-- In everything that happens each executor does what executors do. -/
theorem moves_step (host : Host) (happening : Happening) : host.Moves (host.step happening) := by
  have others := Moves.refl host
  cases happening with
  | addSandbox hook launcher language =>
      exact ⟨.append SandboxMoves.refl _ _, others.workers, others.toolchainExecutors⟩
  | addWorker hook registry launcher language timeout =>
      exact ⟨others.sandboxes, .append WorkerMoves.refl _ _, others.toolchainExecutors⟩
  | addToolchain toolchain language artifacts =>
      exact ⟨others.sandboxes, others.workers, .append (fun _ => .stays) _ _⟩
  | call executor purpose => exact (host.effect_call executor purpose).moves
  | compile compiler source options => exact (host.effect_compile compiler source options).moves
  | turn receiver pending =>
      simp only [step]
      cases turned : turnCall receiver host pending with
      | none => exact .refl host
      | some after => exact (host.effect_turnCall pending turned).moves
  | abandon pending => exact (host.effect_abandon pending).moves
  | destroy executor => exact (host.effect_destroy executor).moves
  | drop executor => exact (host.effect_drop executor).moves
  | provide broker value => exact host.moves_provide broker value
  | onInput hook callback => exact .of_eq rfl rfl rfl
  | behind event => exact host.moves_move event

/-- In everything that happens a host keeps its executors. -/
theorem keeps_step (host : Host) (happening : Happening) : host.Keeps (host.step happening) := by
  have others := Keeps.refl host
  cases happening with
  | addSandbox hook launcher language =>
      exact ⟨.append SandboxKept.refl _ _, others.workers, others.toolchainExecutors,
        Nat.le_refl _⟩
  | addWorker hook registry launcher language timeout =>
      exact ⟨others.sandboxes, .append WorkerKept.refl _ _, others.toolchainExecutors,
        Nat.le_refl _⟩
  | addToolchain toolchain language artifacts =>
      exact ⟨others.sandboxes, others.workers, .append ToolchainKept.refl _ _, Nat.le_refl _⟩
  | call executor purpose => exact host.keeps_call executor purpose
  | compile compiler source options => exact (host.effect_compile compiler source options).keeps
  | turn receiver pending =>
      simp only [step]
      cases turned : turnCall receiver host pending with
      | none => exact .refl host
      | some after => exact host.keeps_turnCall pending turned
  | abandon pending => exact host.keeps_abandon pending
  | destroy executor => exact host.keeps_destroy executor
  | drop executor => exact host.keeps_drop executor
  | provide broker value => exact host.keeps_provide broker value
  | onInput hook callback => exact others.of_eq rfl rfl rfl rfl
  | behind event => exact Facade.World.keeps_move host event

theorem keeps_run (host : Host) (history : List Happening) : host.Keeps (host.run history) := by
  induction history generalizing host with
  | nil => exact .refl host
  | cons happening history ih => exact (host.keeps_step happening).trans (ih _)

end Host

end Polyglot
