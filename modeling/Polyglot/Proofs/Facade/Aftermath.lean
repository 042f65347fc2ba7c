import Polyglot.Proofs.Facade.Surroundings
import Polyglot.Proofs.Facade.Withdrawal
import Polyglot.Proofs.Worker.Aftermath

/-!
# What a destroyed facade leaves behind

Destroying a facade destroys the executor of the request in flight and empties the registry.
The request goes on until it is over, but its executor asks for no worker any more, so the
registry stays empty until the facade accepts another request.
-/

namespace Polyglot

namespace Worker

variable {registry : Registry}

theorem Registry.slot?_of_empty (empty : registry.slots = []) (language : String) :
    registry.slot? language = none := by
  simp [slot?, empty]

@[simp] theorem Registry.slots_stop (registry : Registry) (slot : Slot) :
    (registry.stop slot).slots = registry.slots := by
  cases slot <;> rfl

theorem Registry.slots_expire (registry : Registry) (number : Nat) :
    (registry.expire number).slots = registry.slots := by
  simp only [expire]
  split
  · rfl
  · split <;> rfl

theorem Registry.slots_shutdownAll (registry : Registry) : registry.shutdownAll.slots = [] :=
  registry.shutdownAll_induction (motive := fun after => after.slots = []) rfl
    fun middle slot nothing => (middle.slots_stop slot).trans nothing

namespace Place

variable {place after : Place}

theorem slots_destroy_of_empty (empty : place.registry.slots = []) :
    place.destroy.registry.slots = [] := by
  simp only [destroy]
  split
  · exact empty
  · simp [Registry.shutdown, Registry.slot?_of_empty empty, empty]

theorem slots_turn_of_empty {receiver : String → Option Nat} {number : Nat}
    (empty : place.registry.slots = []) (turned : place.turn receiver number = some after) :
    after.registry.slots = [] := by
  have unkept (start : Nat) (_ : place.executor.Awaits start) :
      place.registry.slot? place.executor.language ≠ some (.starting start) := by
    simp [Registry.slot?_of_empty empty]
  rw [slots_turn unkept turned, empty]

end Place

end Worker

namespace Host

/-- A registry keeps nothing. -/
def KeepsNothing (host : Host) (registry : Nat) : Prop :=
  ∃ lent, host.registries[registry]? = some lent ∧ lent.slots = []

variable {host after : Host} {registry : Nat} {executor : Executor}

theorem KeepsNothing.congr (nothing : host.KeepsNothing registry)
    (same : after.registries = host.registries) : after.KeepsNothing registry := by
  rwa [KeepsNothing, same]

theorem KeepsNothing.modifyRegistry (nothing : host.KeepsNothing registry)
    {change : Worker.Registry → Worker.Registry}
    (empty : ∀ lent, lent.slots = [] → (change lent).slots = []) (number : Nat) :
    (host.modifyRegistry number change).KeepsNothing registry := by
  obtain ⟨lent, kept, isEmpty⟩ := nothing
  by_cases same : number = registry
  · subst same
    exact ⟨change lent, by simp [Host.modifyRegistry, kept], empty lent isEmpty⟩
  · exact ⟨lent, by simp [Host.modifyRegistry, same, kept], isEmpty⟩

/-- A worker executor does something that leaves an empty registry empty. -/
theorem KeepsNothing.setWorkerPlace (nothing : host.KeepsNothing registry) {number lender : Nat}
    {place next : Worker.Place} (at_ : host.workerPlace? number = some (lender, place))
    (empty : place.registry.slots = [] → next.registry.slots = []) :
    (host.setWorkerPlace number lender next).KeepsNothing registry := by
  obtain ⟨⟨same, worker⟩, -, at_⟩ := Option.bind_eq_some_iff.mp at_
  obtain ⟨lent, isLent, at_⟩ := Option.bind_eq_some_iff.mp at_
  cases at_
  obtain ⟨own, isOwn, isEmpty⟩ := nothing
  by_cases isLender : lender = registry
  · subst isLender
    rw [isLent] at isOwn
    cases isOwn
    exact ⟨next.registry, by simp [Host.setWorkerPlace, Host.modifyRegistry, isLent],
      empty isEmpty⟩
  · exact ⟨own, by simp [Host.setWorkerPlace, Host.modifyRegistry, isLender, isOwn], isEmpty⟩

theorem KeepsNothing.changeWorker (nothing : host.KeepsNothing registry)
    {change : Worker.Place → Worker.Place}
    (empty : ∀ place : Worker.Place, place.registry.slots = [] → (change place).registry.slots = [])
    (number : Nat) : (host.changeWorker number change).KeepsNothing registry := by
  simp only [Host.changeWorker]
  cases at_ : host.workerPlace? number with
  | none => exact nothing
  | some found => exact nothing.setWorkerPlace at_ (empty found.2)

/-! ## What is done with an executor -/

theorem registries_callSandbox (host : Host) (number : Nat) (purpose : Purpose) :
    (host.callSandbox number purpose).1.registries = host.registries := by
  simp only [callSandbox]
  split <;> rfl

theorem registries_callCompiled (host : Host) (compiled : Compile.Executor) (purpose : Purpose) :
    (host.callCompiled compiled purpose).1.registries = host.registries := by
  cases purpose with
  | start =>
      simp only [callCompiled]
      split
      · rfl
      · exact host.registries_callSandbox _ _
  | execute code =>
      have calm := host.calm_judge compiled code
      simp only [callCompiled]
      split
      · rename_i after result judged
        rw [judged] at calm
        exact calm.registries
      · rename_i after code judged
        rw [judged] at calm
        exact (after.registries_callSandbox _ _).trans calm.registries

/-- An executor that was destroyed fills no registry when it is called. -/
theorem KeepsNothing.call (nothing : host.KeepsNothing registry)
    (destroyed : host.IsDestroyed executor) (purpose : Purpose) :
    (host.call executor purpose).1.KeepsNothing registry := by
  cases executor with
  | sandboxed number => exact nothing.congr (host.registries_callSandbox number purpose)
  | worker number =>
      simp only [Host.call, callWorker]
      cases at_ : host.workerPlace? number with
      | none => exact nothing
      | some found =>
          obtain ⟨lender, place⟩ := found
          refine nothing.setWorkerPlace at_ fun empty => ?_
          obtain ⟨owner, worker, isWorker, isDestroyed⟩ := destroyed
          simp only [workerPlace?, isWorker, Option.bind_eq_bind, Option.bind_some] at at_
          obtain ⟨lent, -, at_⟩ := Option.bind_eq_some_iff.mp at_
          cases at_
          rw [Worker.Place.call_of_destroyed isDestroyed]
          exact empty
  | compiled compiled => exact nothing.congr (host.registries_callCompiled compiled purpose)
  | toolchain number =>
      refine nothing.congr ?_
      simp only [Host.call, callToolchain]
      split <;> rfl

/-- A call that goes on fills no registry that is empty. -/
theorem KeepsNothing.turnCall (nothing : host.KeepsNothing registry)
    {receiver : String → Option Nat} {pending : Pending}
    (turned : host.turnCall receiver pending = some after) : after.KeepsNothing registry := by
  cases pending with
  | sandbox number call =>
      obtain ⟨found, -, turned⟩ := Option.bind_eq_some_iff.mp turned
      obtain ⟨next, -, turned⟩ := Option.bind_eq_some_iff.mp turned
      cases turned
      exact nothing.congr rfl
  | worker number call =>
      obtain ⟨⟨lender, place⟩, at_, turned⟩ := Option.bind_eq_some_iff.mp turned
      obtain ⟨next, moved, turned⟩ := Option.bind_eq_some_iff.mp turned
      cases turned
      exact nothing.setWorkerPlace at_ fun empty => Worker.Place.slots_turn_of_empty empty moved
  | toolchain number call =>
      obtain ⟨found, -, turned⟩ := Option.bind_eq_some_iff.mp turned
      obtain ⟨next, -, turned⟩ := Option.bind_eq_some_iff.mp turned
      cases turned
      exact nothing.congr rfl
  | finished outcome => contradiction

theorem KeepsNothing.abandon (nothing : host.KeepsNothing registry) (pending : Pending) :
    (host.abandon pending).KeepsNothing registry := by
  cases pending with
  | sandbox number call =>
      refine nothing.congr ?_
      simp only [Host.abandon]
      split <;> rfl
  | worker number call =>
      refine nothing.changeWorker (fun place empty => ?_) number
      rw [(place.slots_abandon call).1, empty]
  | toolchain number call => exact nothing.congr rfl
  | finished outcome => exact nothing

theorem KeepsNothing.destroy (nothing : host.KeepsNothing registry) (executor : Executor) :
    (host.destroy executor).KeepsNothing registry := by
  by_cases isWorker : ∃ number, executor = .worker number
  · obtain ⟨number, rfl⟩ := isWorker
    exact nothing.changeWorker (fun place empty => Worker.Place.slots_destroy_of_empty empty) number
  · exact nothing.congr (host.registries_destroy fun number same => isWorker ⟨number, same⟩)

theorem KeepsNothing.drop (nothing : host.KeepsNothing registry) (executor : Executor) :
    (host.drop executor).KeepsNothing registry :=
  nothing.congr (host.registries_drop executor)

end Host

namespace Facade

variable {host : Host} {facade : Facade} {registry : Nat}

/-! ## What the facade does with a request -/

theorem keepsNothing_proceed (nothing : host.KeepsNothing registry) {executor : Executor}
    (destroyed : host.IsDestroyed executor) (facade : Facade) (code : String)
    (prepared : Outcome) :
    (proceed host facade executor code prepared).1.KeepsNothing registry := by
  cases prepared with
  | error cause => exact nothing.drop executor
  | ok ready =>
      have called := nothing.call destroyed (.execute code)
      simp only [proceed]
      cases (host.call executor (.execute code)).1.outcome?
          (host.call executor (.execute code)).2 with
      | some outcome => exact called.drop executor
      | none => exact called

/-- A request whose executor was destroyed fills no registry that is empty. -/
theorem keepsNothing_turn (nothing : host.KeepsNothing registry) {receiver : String → Option Nat}
    {request : Request} {after : Host × Facade × Request}
    (destroyed : ∀ executor, request.executor? = some executor → host.IsDestroyed executor)
    (turned : facade.turn receiver host request = some after) : after.1.KeepsNothing registry := by
  cases turned_of_turn turned with
  | @prepared executor code pending prepared ended =>
      exact keepsNothing_proceed nothing (destroyed executor rfl) facade code prepared
  | @ended executor pending outcome ended => exact nothing.drop executor
  | going isStanding moved => exact nothing.turnCall moved

theorem keepsNothing_abandon (nothing : host.KeepsNothing registry) (facade : Facade)
    (request : Request) : (facade.abandon host request).1.KeepsNothing registry := by
  cases request with
  | starting executor code pending =>
      exact ((nothing.abandon pending).destroy executor).drop executor
  | executing executor pending =>
      exact ((nothing.abandon pending).destroy executor).drop executor
  | finished report => exact nothing
  | abandoned => exact nothing

/-- A facade that is destroyed leaves its registry empty. -/
theorem keepsNothing_destroy (known : facade.registry < host.registries.length) :
    (facade.destroy host).KeepsNothing facade.registry := by
  have stays (executor : Executor) :
      host.registries.length ≤ (host.destroy executor).registries.length :=
    (host.keeps_destroy executor).registries
  have emptied (host : Host) (known : facade.registry < host.registries.length) :
      (host.modifyRegistry facade.registry Worker.Registry.shutdownAll).KeepsNothing
        facade.registry :=
    ⟨_, by simp [Host.modifyRegistry, List.getElem?_eq_getElem known]; rfl,
      Worker.Registry.slots_shutdownAll _⟩
  simp only [destroy]
  cases facade.armed with
  | none => exact emptied host known
  | some executor => exact emptied _ (Nat.lt_of_lt_of_le known (stays executor))

namespace World

/-- A facade accepts a request: the request is polled for the first time while no other is
in flight. -/
def Accepts (world : World) : Event → Prop
  | .poll _ number => world.facade.running = false ∧
      ∃ asked, world.futures[number]? = some (.created asked)
  | _ => False

/-- The registry is empty, and the executor of the request in flight was destroyed. -/
structure Emptied (world : World) : Prop where
  nothing : world.host.KeepsNothing world.facade.registry
  destroyed : ∀ executor, world.facade.armed = some executor → world.host.IsDestroyed executor

/-- What moves behind the executors fills no registry that is empty. -/
theorem keepsNothing_move (nothing : host.KeepsNothing registry) (event : Event) :
    (move host event).KeepsNothing registry := by
  have changed (number handle : Nat) (change : Worker.Handle → Worker.Handle) :
      (changeHandle host number handle change).KeepsNothing registry := by
    refine Host.KeepsNothing.modifyRegistry nothing ?_ number
    exact fun lent empty => empty
  cases event with
  | launched launcher launching awaiting =>
      simp only [move]
      split
      · cases awaiting with
        | call executor call => exact nothing.congr (host.registries_deliver ..)
        | relay number handle => exact (changed number handle _).congr rfl
      · exact nothing
  | context executor context act => exact nothing.congr rfl
  | interpreter number handle act => exact changed number handle _
  | request number handle => exact changed number handle _
  | message number handle => exact changed number handle _
  | expire number start =>
      exact nothing.modifyRegistry (fun lent empty => by rw [lent.slots_expire, empty]) number
  | release number handle => exact changed number handle _
  | _ => exact nothing

section Steps

variable {world : World} {number : Nat} {event : Event}

theorem emptied_destroy (sound : world.Sound) : (world.step .destroy).Emptied where
  nothing := keepsNothing_destroy sound.registry
  destroyed executor armed := by
    have isArmed : world.facade.armed = some executor := armed
    have gone := Host.isDestroyed_destroy (sound.has executor isArmed)
    simp only [step, Facade.destroy, isArmed, Option.elim_some]
    exact (Host.Keeps.modifyRegistry _ _ _).isDestroyed gone

/-- Only the host has changed. -/
theorem Emptied.of_keeps (emptied : world.Emptied) {host : Host}
    (nothing : host.KeepsNothing world.facade.registry) (keeps : world.host.Keeps host) :
    Emptied { world with host } where
  nothing := nothing
  destroyed executor armed := keeps.isDestroyed (emptied.destroyed executor armed)

theorem Emptied.poll (emptied : world.Emptied) (sound : world.Sound)
    {receiver : String → Option Nat} (unaccepted : ¬world.Accepts (.poll receiver number)) :
    (world.poll receiver number).Emptied := by
  have polled := world.polled receiver number
  generalize world.poll receiver number = after at polled ⊢
  cases polled with
  | still => exact emptied
  | refused found running => exact ⟨emptied.nothing, emptied.destroyed⟩
  | begun found idle executed => exact absurd ⟨idle, _, found⟩ unaccepted
  | turned found inFlight turned =>
      obtain ⟨-, running, armed⟩ := sound.busy found inFlight
      obtain ⟨-, advances⟩ := advances_turn running armed sound.has turned
      obtain ⟨executor, isExecutor⟩ := Request.isInFlight_iff.mp inFlight
      have destroyed := emptied.destroyed executor (armed.trans isExecutor)
      constructor
      case nothing =>
        rw [advances.registry]
        refine keepsNothing_turn emptied.nothing (fun same isSame => ?_) turned
        exact emptied.destroyed same (armed.trans isSame)
      case destroyed =>
        intro same isArmed
        obtain ⟨rfl, -⟩ := continues_turn isExecutor turned same (advances.armed ▸ isArmed)
        exact advances.keeps.isDestroyed destroyed

theorem Emptied.drop (emptied : world.Emptied) (number : Nat) : (world.drop number).Emptied := by
  have dropped := world.dropped number
  generalize world.drop number = after at dropped ⊢
  cases dropped with
  | still => exact emptied
  | unbegun found => exact ⟨emptied.nothing, emptied.destroyed⟩
  | @abandoned asked request executor found inFlight isExecutor =>
      have nothing := keepsNothing_abandon emptied.nothing world.facade request
      cases request with
      | starting same code pending => exact ⟨nothing, fun _ armed => by contradiction⟩
      | executing same pending => exact ⟨nothing, fun _ armed => by contradiction⟩
      | finished report => contradiction
      | abandoned => contradiction

/-- Whatever happens but that a request is accepted leaves the registry empty. -/
theorem Emptied.step (emptied : world.Emptied) (sound : world.Sound)
    (unaccepted : ¬world.Accepts event) : (world.step event).Emptied := by
  have moved (event : Event) : Emptied { world with host := move world.host event } :=
    emptied.of_keeps (keepsNothing_move emptied.nothing event) (keeps_move world.host event)
  cases event with
  | make asked => exact ⟨emptied.nothing, emptied.destroyed⟩
  | poll receiver number => exact emptied.poll sound unaccepted
  | drop number => exact emptied.drop number
  | provide value =>
      refine emptied.of_keeps (emptied.nothing.congr ?_) (world.host.keeps_provide _ value)
      simp only [Host.provide]
      split <;> rfl
  | onInput callback =>
      exact emptied.of_keeps (emptied.nothing.congr rfl)
        ((Host.Keeps.refl world.host).of_eq rfl rfl rfl rfl)
  | destroy => exact emptied_destroy sound
  | _ => exact moved _

theorem Emptied.run (emptied : world.Emptied) (sound : world.Sound) {events : List Event}
    (unaccepted : ∀ first event rest, events = first ++ event :: rest →
      ¬(world.run first).Accepts event) : (world.run events).Emptied := by
  induction events generalizing world with
  | nil => exact emptied
  | cons event events ih =>
      apply ih (emptied.step sound (unaccepted [] event events rfl)) (sound.step event)
      rintro first next rest rfl
      exact unaccepted (event :: first) next rest rfl

/-- A facade keeps its registry. -/
theorem registry_step (sound : world.Sound) (event : Event) :
    (world.step event).facade.registry = world.facade.registry := by
  cases event with
  | poll receiver number =>
      have polled := world.polled receiver number
      simp only [step]
      generalize world.poll receiver number = after at polled ⊢
      cases polled with
      | still => rfl
      | refused found running => rfl
      | begun found idle executed =>
          subst executed
          exact (advances_execute sound.registry idle _).registry
      | turned found inFlight turned =>
          obtain ⟨-, running, armed⟩ := sound.busy found inFlight
          exact (advances_turn running armed sound.has turned).2.registry
  | drop number =>
      have dropped := world.dropped number
      simp only [step]
      generalize world.drop number = after at dropped ⊢
      cases dropped with
      | still => rfl
      | unbegun found => rfl
      | @abandoned asked request executor found inFlight isExecutor => cases request <;> rfl
  | _ => rfl

theorem registry_run (sound : world.Sound) (events : List Event) :
    (world.run events).facade.registry = world.facade.registry := by
  induction events generalizing world with
  | nil => rfl
  | cons event events ih => rw [run_cons, ih (sound.step event), registry_step sound event]

end Steps

/-- A facade that is destroyed at any time leaves its registry empty until it accepts
another request. -/
theorem keepsNothing_run (host : Host) (facade : Facade) (earlier later : List Event)
    (unaccepted : ∀ first event rest, later = first ++ event :: rest →
      ¬((fresh host facade).run (earlier ++ .destroy :: first)).Accepts event) :
    ((fresh host facade).run (earlier ++ .destroy :: later)).host.KeepsNothing
      host.registries.length := by
  have sound := (sound_fresh host facade).run earlier
  have emptied := (emptied_destroy sound).run (sound.step .destroy) fun first event rest same => by
    have accepts := unaccepted first event rest same
    rwa [run_append, run_cons] at accepts
  have own : ((((fresh host facade).run earlier).step .destroy).run later).facade.registry =
      host.registries.length := by
    rw [registry_run (sound.step .destroy), registry_step sound,
      registry_run (sound_fresh host facade)]
    rfl
  rw [run_append, run_cons, ← own]
  exact emptied.nothing

end World

end Facade

/-! ## Executors and facades -/

/-- Whatever happens after an executor was destroyed, its callers leave what the registry
keeps to others; and a facade that was destroyed keeps no worker until it accepts another
request. -/
theorem revives_nothing_after_destroy (desk : Desk) (executors : List Worker.Executor)
    (host : Host) (facade : Facade) :
    (∀ earlier later executor found,
      ((Worker.Workshop.fresh desk executors).run earlier).executors[executor]? = some found →
        ((Worker.Workshop.fresh desk executors).run earlier).Yields executor found later) ∧
    ∀ earlier later,
      (∀ first event rest, later = first ++ event :: rest →
        ¬((Facade.World.fresh host facade).run (earlier ++ .destroy :: first)).Accepts event) →
      ((Facade.World.fresh host facade).run (earlier ++ .destroy :: later)).host.KeepsNothing
        host.registries.length :=
  ⟨fun earlier later _ _ => Worker.Workshop.yields_run desk executors earlier later,
    Facade.World.keepsNothing_run host facade⟩

/-- A call and a request that wait for a worker when they are destroyed go on until they are
over, and nothing is kept of the worker. -/
theorem revives_nothing_while_starting :
    let executors : List Worker.Executor :=
      [{ language := "python", launcher := 0, timeout := ⟨30, 0⟩, broker := 0 }]
    let shop := (Worker.Workshop.fresh {} executors).run [.call 0 .start]
    let left := (shop.step (.destroy 0)).run [.launched 0 (.ok ()), .interpreter 0 (.say .ready),
      .message 0, .poll (fun _ => none) 0 0, .poll (fun _ => none) 0 0]
    let language : Language :=
      { name := "Python", extension := ⟨"py", by decide⟩, backend := .worker }
    let facade : Facade :=
      { config := { languages := [("python", language)] }, hook := 0, registry := 0
        workers := [("python", 0)] }
    let earlier : List Facade.Event := [.make ⟨"x", "python"⟩, .poll (fun _ => none) 0]
    let later : List Facade.Event := [.launched 0 (.planned {}) (.relay 0 0),
      .interpreter 0 0 (.say .ready), .message 0 0, .poll (fun _ => none) 0,
      .poll (fun _ => none) 0]
    shop.registry.slot? "python" = some (.starting 0) ∧
      (left.executors[0]? >>= (·.outcome? 0)) = some (.ok none) ∧
      left.registry.slot? "python" = none ∧
      ¬((Facade.World.fresh {} facade).run earlier).host.KeepsNothing 0 ∧
      ((Facade.World.fresh {} facade).run (earlier ++ .destroy :: later)).host.KeepsNothing 0 := by
  intro executors shop left language facade earlier later
  obtain ⟨yields, empties⟩ := revives_nothing_after_destroy {} executors {} facade
  refine ⟨by decide, rfl, ?_, ?_, ?_⟩
  · have yielded := yields [.call 0 .start] [.launched 0 (.ok ()), .interpreter 0 (.say .ready),
      .message 0, .poll (fun _ => none) 0 0, .poll (fun _ => none) 0 0] 0 _ rfl
    refine yielded.vacant (yielded.forgotten rfl) fun first occurrence rest same => ?_
    rcases first with _ | ⟨_, _ | ⟨_, _ | ⟨_, _ | ⟨_, _ | ⟨_, first⟩⟩⟩⟩⟩
    case cons.cons.cons.cons.cons => simp at same
    all_goals
      cases same
      exact id
  · rintro ⟨registry, kept, empty⟩
    have starting : (((Facade.World.fresh {} facade).run earlier).host.registries[0]?.map
        (·.slots)) = some [("python", .starting 0)] := by decide +kernel
    rw [kept, Option.map_some, empty] at starting
    contradiction
  · refine empties earlier later fun first event rest same => ?_
    dsimp only [later] at same
    rcases first with _ | ⟨_, _ | ⟨_, _ | ⟨_, _ | ⟨_, _ | ⟨_, first⟩⟩⟩⟩⟩
    case cons.cons.cons.cons.cons => simp at same
    case nil => cases same; exact id
    case cons.nil => cases same; exact id
    case cons.cons.nil => cases same; exact id
    all_goals
      cases same
      rintro ⟨idle, -⟩
      exact absurd idle (by decide +kernel)

end Polyglot
