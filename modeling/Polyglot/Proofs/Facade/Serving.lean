import Polyglot.Proofs.Facade.SingleFlight
import Polyglot.Proofs.Host.Serving

/-!
# The requests that brokers serve

Every request gets an executor of its own, with a broker that no other executor has.  While
the request is in flight, that broker serves it and nobody else, whatever happens.
-/

namespace Polyglot

namespace Host

/-- Nobody has called an executor yet, and it has its broker for itself. -/
structure IsNew (host : Host) (executor : Executor) : Prop where
  furnished : host.IsFurnished
  lone : host.IsLone executor
  stands : ¬executor.IsDeaf → ¬host.IsDestroyed executor
  serves : ∃ pending, host.Serves executor pending ∧ host.heldTickets pending = []

variable {host after : Host} {executor : Executor}

/-! ## New executors -/

section Making

/-- No executor has a broker that the desk does not have. -/
theorem IsFurnished.ne (furnished : host.IsFurnished) {number broker : Nat}
    (isBroker : host.brokerOf? (.sandboxed number) = some broker) :
    broker ≠ host.desk.brokers.length := by
  rintro rfl
  have kept := furnished number _ isBroker
  simp [Desk.broker?] at kept

theorem broker?_addBroker (desk : Desk) (hook number : Nat) (language : String) :
    (desk.addBroker hook language).1.broker? number =
      if number = desk.brokers.length then some { language } else desk.broker? number := by
  simp only [Desk.addBroker, Desk.broker?]
  rcases Nat.lt_trichotomy number desk.brokers.length with below | same | above
  · rw [if_neg (Nat.ne_of_lt below), List.getElem?_append_left below]
  · simp [same]
  · have beyond : (desk.brokers ++ [(hook, ({ language } : Broker))]).length ≤ number := by
      simp only [List.length_append, List.length_singleton]
      exact above
    rw [if_neg (Nat.ne_of_gt above), List.getElem?_eq_none beyond,
      List.getElem?_eq_none (Nat.le_of_lt above)]

theorem brokerOf?_addSandbox (host : Host) (hook launcher number : Nat) (language : String) :
    (host.addSandbox hook launcher language).1.brokerOf? (.sandboxed number) =
      if number = host.sandboxes.length then some host.desk.brokers.length
      else host.brokerOf? (.sandboxed number) := by
  simp only [brokerOf?, addSandbox, Desk.addBroker]
  rcases Nat.lt_trichotomy number host.sandboxes.length with below | same | above
  · rw [if_neg (Nat.ne_of_lt below), List.getElem?_append_left below]
  · simp [same]
  · rw [if_neg (Nat.ne_of_gt above), List.getElem?_eq_none (Nat.le_of_lt above),
      List.getElem?_eq_none]
    simp only [List.length_append, List.length_singleton]
    exact above

/-- A sandbox executor is added for an executor that delegates to it, or is it. -/
theorem isNew_addSandbox (furnished : host.IsFurnished) (hook launcher : Nat) (language : String)
    (isSandbox : executor.sandbox? = some host.sandboxes.length) :
    (host.addSandbox hook launcher language).1.IsNew executor := by
  have own : (host.addSandbox hook launcher language).1.brokerOf? executor =
      some host.desk.brokers.length := by
    rw [brokerOf?_of_sandbox? _ isSandbox, brokerOf?_addSandbox, if_pos rfl]
  refine ⟨fun number broker isBroker => ?_, fun number broker isBroker isOther => ?_,
    fun _ destroyed => ?_, .sandbox host.sandboxes.length 0,
    .sandbox isSandbox List.getElem?_concat_length ?_, ?_⟩
  · rw [brokerOf?_addSandbox] at isBroker
    change ((host.desk.addBroker hook language).1.broker? broker).isSome = true
    rw [broker?_addBroker]
    split at isBroker
    · cases isBroker
      simp
    · rw [if_neg (furnished.ne isBroker)]
      exact furnished number broker isBroker
  · cases own.symm.trans isBroker
    rw [brokerOf?_addSandbox] at isOther
    split at isOther
    · rename_i same
      rw [isSandbox, same]
    · exact absurd rfl (furnished.ne isOther)
  · rw [isDestroyed_of_sandbox? isSandbox List.getElem?_concat_length] at destroyed
    contradiction
  · refine ⟨Sandbox.Executor.coherent_fresh _ _, { language }, ?_, Broker.serves_fresh language _⟩
    exact (broker?_addBroker host.desk hook _ language).trans (if_pos rfl)
  · simp [heldTickets, addSandbox, Sandbox.Executor.heldTickets, Sandbox.Executor.phase?]

theorem isNew_addWorker (furnished : host.IsFurnished) (hook launcher : Nat) (language : String)
    (timeout : Duration) {registry : Nat} (known : registry < host.registries.length) :
    (host.addWorker hook registry launcher language timeout).1.IsNew
      (.worker host.workers.length) := by
  have own : (host.addWorker hook registry launcher language timeout).1.brokerOf?
      (.worker host.workers.length) = some host.desk.brokers.length := by
    simp [brokerOf?, addWorker, Desk.addBroker]
  have idle {place : Worker.Place} (uncalled : place.executor.calls = []) (handle run : Nat) :
      place.executor.phase? 0 ≠ some (.running handle run) := by
    simp [Worker.Executor.phase?, uncalled]
  refine ⟨fun number broker isBroker => ?_, fun number broker isBroker isOther => ?_,
    fun _ destroyed => ?_, .worker host.workers.length 0,
    .worker List.getElem?_concat_length (List.getElem?_eq_getElem known) ?_, ?_⟩
  · change ((host.desk.addBroker hook language).1.broker? broker).isSome = true
    rw [broker?_addBroker, if_neg (furnished.ne isBroker)]
    exact furnished number broker isBroker
  · cases own.symm.trans isBroker
    exact absurd rfl (furnished.ne isOther)
  · simp [IsDestroyed, addWorker] at destroyed
  · refine .of_idle ⟨{ language }, ?_, Broker.serves_fresh language _⟩ (idle rfl)
    exact (broker?_addBroker host.desk hook _ language).trans (if_pos rfl)
  · simp only [heldTickets]
    cases at_ : (host.addWorker hook registry launcher language timeout).1.workerPlace?
        host.workers.length with
    | none => rfl
    | some pair =>
        refine Worker.Place.heldTickets_of_phase? pair.2 (idle ?_)
        simp only [workerPlace?, addWorker, List.getElem?_concat_length, Option.bind_eq_bind,
          Option.bind_some] at at_
        obtain ⟨lent, -, at_⟩ := Option.bind_eq_some_iff.mp at_
        cases at_
        rfl

/-- An executor that nothing can be given to has no broker. -/
theorem isNew_of_isDeaf (furnished : host.IsFurnished) (isDeaf : executor.IsDeaf) :
    host.IsNew executor where
  furnished := furnished
  lone number broker isBroker := by
    rw [brokerOf?_of_isDeaf host isDeaf] at isBroker
    contradiction
  stands hears := absurd isDeaf hears
  serves := ⟨.finished (.ok none), .deaf isDeaf fun _ => rfl, rfl⟩

end Making

end Host

namespace Facade

open Host

variable {host after : Host} {facade : Facade} {executor : Executor} {pending : Pending}

/-- A new executor is one that nobody has called. -/
theorem isNew_executorFor (furnished : host.IsFurnished)
    (known : facade.registry < host.registries.length) {id : String} {language : Language}
    (made : executorFor host facade id language = .ok (after, executor)) :
    after.IsNew executor := by
  cases (made_executorFor made).1 with
  | sandbox launcher id isSandbox => exact isNew_addSandbox furnished _ _ _ isSandbox
  | worker launcher id timeout => exact isNew_addWorker furnished _ _ _ _ known
  | alone alone => exact isNew_of_isDeaf furnished ⟨alone, by simp⟩
  | toolchain toolchain id artifacts =>
      have keeps : host.KeepsBrokers (host.addToolchain toolchain id artifacts).1 :=
        .of_eq (fun _ => rfl) rfl rfl
      exact isNew_of_isDeaf (keeps.isFurnished furnished) ⟨rfl, by simp⟩

/-! ## What the facade does with a request -/

/-- The broker of the executor of a request in flight serves the request and nobody else. -/
structure Routed (host : Host) (request : Request) : Prop where
  serves : ∀ executor pending, request.standing? = some (executor, pending) →
    host.Serves executor pending
  lone : ∀ executor pending, request.standing? = some (executor, pending) → host.IsLone executor

section Requests

variable {request : Request}

theorem Routed.of_standing (serves : host.Serves executor pending) (lone : host.IsLone executor)
    (standing : request.standing? = some (executor, pending)) : Routed host request := by
  refine ⟨fun other call isStanding => ?_, fun other call isStanding => ?_⟩
  · cases standing.symm.trans isStanding
    exact serves
  · cases standing.symm.trans isStanding
    exact lone

theorem Routed.of_over (settled : request.standing? = none) : Routed host request := by
  refine ⟨fun other call isStanding => ?_, fun other call isStanding => ?_⟩
  · rw [settled] at isStanding
    contradiction
  · rw [settled] at isStanding
    contradiction

theorem routed_finish (furnished : host.IsFurnished) (facade : Facade) (executor : Executor)
    (outcome : Outcome) :
    (finish host facade executor outcome).1.IsFurnished ∧
      Routed (finish host facade executor outcome).1 (finish host facade executor outcome).2.2 :=
  ⟨(host.effect_drop executor).keepsBrokers.isFurnished furnished, .of_over rfl⟩

/-- The code of a request runs after its executor was made ready. -/
theorem routed_proceed (furnished : host.IsFurnished) (serves : host.Serves executor pending)
    (nothing : host.heldTickets pending = []) (lone : host.IsLone executor) (facade : Facade)
    (code : String) (prepared : Outcome) :
    (proceed host facade executor code prepared).1.IsFurnished ∧
      Routed (proceed host facade executor code prepared).1
        (proceed host facade executor code prepared).2.2 := by
  cases prepared with
  | error cause => exact routed_finish furnished facade executor _
  | ok ready =>
      have keeps := (host.effect_call executor (.execute code)).keepsBrokers
      simp only [proceed]
      cases outcome : (host.call executor (.execute code)).1.outcome?
          (host.call executor (.execute code)).2 with
      | some outcome => exact routed_finish (keeps.isFurnished furnished) facade executor _
      | none =>
          exact ⟨keeps.isFurnished furnished,
            .of_standing (serves.call nothing (.inr outcome)) (keeps.isLone lone) rfl⟩

/-- A new executor is made ready. -/
theorem routed_dispatch (isNew : host.IsNew executor) (facade : Facade) (code : String) :
    (dispatch host facade executor code).1.IsFurnished ∧
      Routed (dispatch host facade executor code).1 (dispatch host facade executor code).2.2 := by
  obtain ⟨furnished, lone, -, pending, serves, nothing⟩ := isNew
  have keeps := (host.effect_call executor .start).keepsBrokers
  have called := serves.call nothing (.inl rfl)
  simp only [dispatch]
  cases outcome : (host.call executor .start).1.outcome? (host.call executor .start).2 with
  | some prepared =>
      exact routed_proceed (keeps.isFurnished furnished) called (heldTickets_of_outcome? outcome)
        (keeps.isLone lone) _ code prepared
  | none => exact ⟨keeps.isFurnished furnished, .of_standing called (keeps.isLone lone) rfl⟩

/-- A request that comes while none is in flight is taken as far as it can be. -/
theorem routed_execute (furnished : host.IsFurnished)
    (known : facade.registry < host.registries.length) (idle : facade.running = false)
    (asked : RunRequest) :
    (execute host facade asked).1.IsFurnished ∧
      Routed (execute host facade asked).1 (execute host facade asked).2.2 := by
  simp only [execute, idle, Bool.false_eq_true, if_false]
  split
  · exact ⟨furnished, .of_over rfl⟩
  · split
    · exact ⟨furnished, .of_over rfl⟩
    · split
      · exact ⟨furnished, .of_over rfl⟩
      · exact ⟨furnished, .of_over rfl⟩
      · rename_i after executor made
        exact routed_dispatch (isNew_executorFor furnished known made) _ asked.code

/-- A request in flight goes on. -/
theorem routed_turn (furnished : host.IsFurnished) (routed : Routed host request)
    {receiver : String → Option Nat} {after : Host × Facade × Request}
    (turned : facade.turn receiver host request = some after) :
    after.1.IsFurnished ∧ Routed after.1 after.2.2 := by
  cases turned_of_turn turned with
  | @prepared executor code pending prepared ended =>
      exact routed_proceed furnished (routed.serves executor pending rfl)
        (heldTickets_of_outcome? ended) (routed.lone executor pending rfl) facade code prepared
  | ended ended => exact routed_finish furnished facade _ _
  | @going _ executor pending next isStanding moved =>
      have keeps := (host.effect_turnCall pending moved).keepsBrokers
      exact ⟨keeps.isFurnished furnished,
        .of_standing ((routed.serves executor pending isStanding).turnCall moved)
          (keeps.isLone (routed.lone executor pending isStanding)) isStanding⟩

/-- The caller of a request goes away. -/
theorem isFurnished_abandon (furnished : host.IsFurnished) (facade : Facade) (request : Request) :
    (facade.abandon host request).1.IsFurnished := by
  have gone (executor : Executor) (pending : Pending) :
      (((host.abandon pending).destroy executor).drop executor).IsFurnished := by
    have left := (host.effect_abandon pending).keepsBrokers
    have destroyed := ((host.abandon pending).effect_destroy executor).keepsBrokers
    have dropped := (((host.abandon pending).destroy executor).effect_drop executor).keepsBrokers
    exact ((left.trans destroyed).trans dropped).isFurnished furnished
  cases request with
  | starting executor code pending => exact gone executor pending
  | executing executor pending => exact gone executor pending
  | finished report => exact furnished
  | abandoned => exact furnished

end Requests

/-! ## What a world keeps -/

namespace World

/-- Every request in flight is served by the broker of its executor. -/
structure Tidy (world : World) : Prop where
  sound : world.Sound
  furnished : world.host.IsFurnished
  routed : ∀ (number : Nat) (asked : RunRequest) (request : Request),
    world.futures[number]? = some (.polled asked request) → Routed world.host request

section Steps

variable {world : World} {number : Nat}

theorem tidy_fresh (furnished : host.IsFurnished) (facade : Facade) :
    (fresh host facade).Tidy where
  sound := sound_fresh host facade
  furnished := furnished
  routed := by simp [fresh]

/-- Only the host has changed. -/
theorem Tidy.changeHost (tidy : world.Tidy) (sound : Sound { world with host })
    (keeps : world.host.KeepsBrokers host)
    (serves : ∀ (number : Nat) (asked : RunRequest) (request : Request) (executor : Executor)
      (pending : Pending), world.futures[number]? = some (.polled asked request) →
        request.standing? = some (executor, pending) → world.host.Serves executor pending →
        world.host.IsLone executor → host.Serves executor pending) :
    Tidy { world with host } where
  sound := sound
  furnished := keeps.isFurnished tidy.furnished
  routed number asked request found := by
    obtain ⟨served, lone⟩ := tidy.routed number asked request found
    exact ⟨fun executor pending isStanding => serves number asked request executor pending found
      isStanding (served executor pending isStanding) (lone executor pending isStanding),
      fun executor pending isStanding => keeps.isLone (lone executor pending isStanding)⟩

/-- The facade has gone on with the only request in flight. -/
theorem Tidy.advance {host : Host} {facade : Facade} {future : Future}
    (sound : Sound ⟨host, facade, world.futures.set number future⟩)
    (inside : number < world.futures.length)
    (alone : ∀ other, world.InFlight other → other = number) (furnished : host.IsFurnished)
    (routed : ∀ asked request, future = .polled asked request → Routed host request) :
    Tidy ⟨host, facade, world.futures.set number future⟩ where
  sound := sound
  furnished := furnished
  routed other asked request found := by
    by_cases same : number = other
    · subst same
      rw [List.getElem?_set_self inside] at found
      exact routed asked request (Option.some.inj found)
    · rw [List.getElem?_set_ne same] at found
      refine .of_over ?_
      cases inFlight : request.isInFlight with
      | true => exact absurd (alone other ⟨_, found, inFlight⟩).symm same
      | false => cases request <;> first | rfl | contradiction

/-- A future that is not in flight has become another that is not. -/
theorem Tidy.replace (tidy : world.Tidy) {future : Future}
    (sound : Sound { world with futures := world.futures.set number future })
    (inside : number < world.futures.length)
    (rests : ∀ asked request, future = .polled asked request → request.standing? = none) :
    Tidy { world with futures := world.futures.set number future } where
  sound := sound
  furnished := tidy.furnished
  routed other asked request found := by
    by_cases same : number = other
    · subst same
      rw [List.getElem?_set_self inside] at found
      exact .of_over (rests asked request (Option.some.inj found))
    · rw [List.getElem?_set_ne same] at found
      exact tidy.routed other asked request found

theorem Tidy.poll (tidy : world.Tidy) (receiver : String → Option Nat) (number : Nat) :
    (world.poll receiver number).Tidy := by
  have sound := tidy.sound.poll receiver number
  have polled := world.polled receiver number
  generalize world.poll receiver number = after at polled sound ⊢
  cases polled with
  | still => exact tidy
  | refused found running =>
      refine tidy.replace sound (List.getElem?_eq_some_iff.mp found).1 fun same request polled => ?_
      cases polled
      rfl
  | begun found idle executed =>
      subst executed
      obtain ⟨furnished, routed⟩ := routed_execute tidy.furnished tidy.sound.registry idle _
      refine .advance sound (List.getElem?_eq_some_iff.mp found).1 ?_ furnished
        fun same request polled => ?_
      · exact fun other inFlight => absurd inFlight (tidy.sound.nobody idle other)
      · cases polled
        exact routed
  | turned found inFlight turned =>
      obtain ⟨alone, -, -⟩ := tidy.sound.busy found inFlight
      obtain ⟨furnished, routed⟩ := routed_turn tidy.furnished (tidy.routed _ _ _ found) turned
      refine .advance sound (List.getElem?_eq_some_iff.mp found).1 alone furnished
        fun same request polled => ?_
      cases polled
      exact routed

theorem Tidy.drop (tidy : world.Tidy) (number : Nat) : (world.drop number).Tidy := by
  have sound := tidy.sound.drop number
  have dropped := world.dropped number
  generalize world.drop number = after at dropped sound ⊢
  cases dropped with
  | still => exact tidy
  | unbegun found =>
      exact tidy.replace sound (List.getElem?_eq_some_iff.mp found).1
        fun same request polled => by contradiction
  | abandoned found inFlight isExecutor =>
      obtain ⟨alone, -, -⟩ := tidy.sound.busy found inFlight
      exact .advance sound (List.getElem?_eq_some_iff.mp found).1 alone
        (isFurnished_abandon tidy.furnished world.facade _)
        fun same request polled => by contradiction

theorem Tidy.make (tidy : world.Tidy) (asked : RunRequest) :
    Tidy { world with futures := world.futures ++ [.created asked] } where
  sound := tidy.sound.make asked
  furnished := tidy.furnished
  routed other same request found := by
    by_cases below : other < world.futures.length
    · rw [List.getElem?_append_left below] at found
      exact tidy.routed other same request found
    · rw [List.getElem?_append_right (Nat.le_of_not_lt below)] at found
      exact absurd (List.mem_singleton.mp (List.mem_of_getElem? found)) (by simp)

/-- The executor of the request in flight is destroyed, and every warm worker is stopped. -/
theorem Tidy.destroy (tidy : world.Tidy) : (world.step .destroy).Tidy := by
  have sound := tidy.sound.step .destroy
  have stopped (host : Host) : host.KeepsBrokers
      (host.modifyRegistry world.facade.registry Worker.Registry.shutdownAll) :=
    .of_eq (fun _ => rfl) rfl rfl
  refine tidy.changeHost sound ?_ fun number asked request executor pending found isStanding
    serves _ => ?_
  · simp only [Facade.destroy]
    cases world.facade.armed with
    | none => exact stopped world.host
    | some executor => exact (world.host.effect_destroy executor).keepsBrokers.trans (stopped _)
  · obtain ⟨inFlight, isExecutor⟩ := Request.executor?_of_standing? isStanding
    obtain ⟨-, -, armed⟩ := tidy.sound.busy found inFlight
    simp only [Facade.destroy, armed, isExecutor, Option.elim_some]
    exact serves.destroy.modifyRegistry _ Worker.Registry.keepsRuns_shutdownAll

theorem Tidy.provide (tidy : world.Tidy) (value : String) :
    (world.step (.provide value)).Tidy :=
  tidy.changeHost (tidy.sound.step (.provide value)) (world.host.keepsBrokers_provide _ value)
    fun _ _ _ _ _ _ _ serves _ => serves.provide _ value

theorem Tidy.onInput (tidy : world.Tidy) (callback : Callback) :
    (world.step (.onInput callback)).Tidy := by
  refine tidy.changeHost (tidy.sound.step (.onInput callback))
    (.of_eq (fun number => world.host.desk.hookOf?_setHook number _ _) rfl rfl)
    fun _ _ _ _ _ _ _ serves _ => ?_
  exact serves.changeDesk fun broker withdrawn tickets served =>
    served.congr (world.host.desk.broker?_setHook broker _ _)

/-- Whatever stands behind the executors moves. -/
theorem Tidy.move (tidy : world.Tidy) (event : Event)
    (sound : Sound { world with host := World.move world.host event }) :
    Tidy { world with host := World.move world.host event } :=
  tidy.changeHost sound (world.host.keepsBrokers_move event)
    fun _ _ _ _ _ _ _ serves lone => serves.move lone event

/-- Every event keeps a world tidy. -/
theorem Tidy.step (tidy : world.Tidy) (event : Event) : (world.step event).Tidy := by
  have sound := tidy.sound.step event
  cases event with
  | make asked => exact tidy.make asked
  | poll receiver number => exact tidy.poll receiver number
  | drop number => exact tidy.drop number
  | provide value => exact tidy.provide value
  | onInput callback => exact tidy.onInput callback
  | destroy => exact tidy.destroy
  | _ => exact tidy.move _ sound

/-- A world is tidy after any events. -/
theorem Tidy.run (tidy : world.Tidy) (events : List Event) : (world.run events).Tidy := by
  induction events generalizing world with
  | nil => exact tidy
  | cons event events ih => exact ih (tidy.step event)

end Steps

end World

end Facade

end Polyglot
