import Polyglot.Proofs.Facade.Making
import Polyglot.Proofs.Facade.Persistence

/-!
# One request at a time

A facade remembers in two places that a request is in flight: in a flag, and in the
executor that it has armed.  Both say the same whatever happens, so at most one request
is in flight, and when none is, both are cleared.
-/

namespace Polyglot.Facade

/-! ## What the facade does with a request -/

/-- What holds when the facade has gone on with a request: the flag and the armed
executor agree with where the request stands, and the host has the executor. -/
structure Advances (host : Host) (facade : Facade) (after : Host × Facade × Request) : Prop where
  keeps : host.Keeps after.1
  running : after.2.1.running = after.2.2.isInFlight
  armed : after.2.1.armed = after.2.2.executor?
  has : ∀ executor, after.2.2.executor? = some executor → after.1.Has executor
  registry : after.2.1.registry = facade.registry
  config : after.2.1.config = facade.config

section Operations

variable {host : Host} {facade : Facade} {executor : Executor}

theorem advances_finish (host : Host) (facade : Facade) (executor : Executor)
    (outcome : Outcome) : Advances host facade (finish host facade executor outcome) where
  keeps := host.keeps_drop executor
  running := rfl
  armed := rfl
  has := by simp [finish, Request.executor?]
  registry := rfl
  config := rfl

theorem Advances.of_keeps {before : Host} {after : Host × Facade × Request}
    (advances : Advances host facade after) (keeps : before.Keeps host) :
    Advances before facade after :=
  { advances with keeps := keeps.trans advances.keeps }

/-- A request with an executor that is ready runs its code. -/
theorem advances_proceed (facade : Facade) (has : host.Has executor)
    (running : facade.running = true) (armed : facade.armed = some executor) (code : String)
    (prepared : Outcome) :
    Advances host facade (proceed host facade executor code prepared) := by
  cases prepared with
  | error cause => exact advances_finish host facade executor (.error cause)
  | ok ready =>
      have called := host.keeps_call executor (.execute code)
      simp only [proceed]
      cases (host.call executor (.execute code)).1.outcome?
          (host.call executor (.execute code)).2 with
      | some outcome =>
          exact (advances_finish _ facade executor outcome).of_keeps called
      | none =>
          refine ⟨called, running, armed, ?_, rfl, rfl⟩
          intro same isSame
          cases isSame
          exact called.has has

/-- A request whose executor is armed makes the executor ready. -/
theorem advances_dispatch (facade : Facade) (has : host.Has executor)
    (running : facade.running = true) (code : String) :
    Advances host facade (dispatch host facade executor code) := by
  have called := host.keeps_call executor .start
  simp only [dispatch]
  cases (host.call executor .start).1.outcome? (host.call executor .start).2 with
  | some prepared =>
      have proceeded := advances_proceed { facade with armed := some executor }
        (called.has has) running rfl code prepared
      exact { proceeded.of_keeps called with
        registry := proceeded.registry
        config := proceeded.config }
  | none =>
      refine ⟨called, running, rfl, ?_, rfl, rfl⟩
      intro same isSame
      cases isSame
      exact called.has has

/-- A new executor is one that the host has. -/
theorem has_executorFor {id : String} {language : Language} {after : Host}
    (known : facade.registry < host.registries.length)
    (made : executorFor host facade id language = .ok (after, executor)) :
    host.Keeps after ∧ after.Has executor := by
  obtain ⟨sandboxes, workers, toolchainExecutors, registries⟩ := Host.Keeps.refl host
  cases (made_executorFor made).1 with
  | sandbox launcher id isSandbox =>
      refine ⟨⟨.append Host.SandboxKept.refl _ _, workers, toolchainExecutors, registries⟩, ?_⟩
      have inside (number : Nat) (same : executor.sandbox? = some number) :
          number < (host.addSandbox facade.hook launcher id).1.sandboxes.length := by
        rw [← Option.some.inj (isSandbox.symm.trans same)]
        simp [Host.addSandbox]
      cases executor with
      | sandboxed number => exact inside number rfl
      | compiled compiled => exact inside
      | worker number => contradiction
      | toolchain number => contradiction
  | worker launcher id timeout =>
      exact ⟨⟨sandboxes, .append Host.WorkerKept.refl _ _, toolchainExecutors, registries⟩,
        facade.registry, _, List.getElem?_concat_length, known⟩
  | alone alone =>
      refine ⟨.refl _, fun number delegated => ?_⟩
      rw [alone] at delegated
      contradiction
  | toolchain toolchain id artifacts =>
      refine ⟨⟨sandboxes, workers, .append Host.ToolchainKept.refl _ _, registries⟩, ?_⟩
      simp [Host.Has, Host.addToolchain]

theorem advances_refuse (host : Host) (facade : Facade) (report : Report) :
    Advances host facade (host, facade.clear, .finished report) where
  keeps := .refl host
  running := rfl
  armed := rfl
  has := by simp [Request.executor?]
  registry := rfl
  config := rfl

/-- A request that comes while none is in flight is taken as far as it can be. -/
theorem advances_execute (known : facade.registry < host.registries.length)
    (idle : facade.running = false) (asked : RunRequest) :
    Advances host facade (execute host facade asked) := by
  simp only [execute, idle, Bool.false_eq_true, if_false]
  split
  · exact advances_refuse host facade _
  · split
    · exact advances_refuse host facade _
    · split
      · exact advances_refuse host facade _
      · exact advances_refuse host facade _
      · rename_i after executor made
        obtain ⟨keeps, has⟩ := has_executorFor known made
        have dispatched := advances_dispatch { facade with running := true } has rfl
          asked.code
        exact { dispatched.of_keeps keeps with
          registry := dispatched.registry
          config := dispatched.config }

/-- A request after a turn. -/
inductive Turned (receiver : String → Option Nat) (host : Host) (facade : Facade) :
    Request → Host × Facade × Request → Prop where
  /-- Its executor was made ready, or could not be. -/
  | prepared {executor : Executor} {code : String} {pending : Pending} {prepared : Outcome}
      (ended : host.outcome? pending = some prepared) :
      Turned receiver host facade (.starting executor code pending)
        (proceed host facade executor code prepared)
  | ended {executor : Executor} {pending : Pending} {outcome : Outcome}
      (ended : host.outcome? pending = some outcome) :
      Turned receiver host facade (.executing executor pending)
        (finish host facade executor outcome)
  /-- The call that it waits for has taken a turn. -/
  | going {request : Request} {executor : Executor} {pending : Pending} {next : Host}
      (isStanding : request.standing? = some (executor, pending))
      (moved : host.turnCall receiver pending = some next) :
      Turned receiver host facade request (next, facade, request)

theorem turned_of_turn {receiver : String → Option Nat} {request : Request}
    {after : Host × Facade × Request} (turned : facade.turn receiver host request = some after) :
    Turned receiver host facade request after := by
  cases request with
  | starting executor code pending =>
      simp only [turn] at turned
      split at turned
      · rename_i prepared ended
        cases turned
        exact .prepared ended
      · obtain ⟨next, moved, turned⟩ := Option.bind_eq_some_iff.mp turned
        cases turned
        exact .going rfl moved
  | executing executor pending =>
      simp only [turn] at turned
      split at turned
      · rename_i outcome ended
        cases turned
        exact .ended ended
      · obtain ⟨next, moved, turned⟩ := Option.bind_eq_some_iff.mp turned
        cases turned
        exact .going rfl moved
  | finished report => contradiction
  | abandoned => contradiction

/-- A request in flight goes on. -/
theorem advances_turn {receiver : String → Option Nat} {request : Request}
    {after : Host × Facade × Request} (running : facade.running = true)
    (armed : facade.armed = request.executor?)
    (has : ∀ executor, facade.armed = some executor → host.Has executor)
    (turned : facade.turn receiver host request = some after) :
    request.isInFlight = true ∧ Advances host facade after := by
  cases turned_of_turn turned with
  | @prepared executor code pending prepared ended =>
      exact ⟨rfl, advances_proceed facade (has executor armed) running armed code prepared⟩
  | ended ended => exact ⟨rfl, advances_finish host facade _ _⟩
  | @going _ executor pending next isStanding moved =>
      obtain ⟨inFlight, isExecutor⟩ := Request.executor?_of_standing? isStanding
      have keeps := host.keeps_turnCall pending moved
      refine ⟨inFlight, keeps, running.trans inFlight.symm, armed, ?_, rfl, rfl⟩
      intro same isSame
      exact keeps.has (has same (armed.trans isSame))

/-- A request in flight whose caller goes away has its executor destroyed. -/
theorem advances_abandon (facade : Facade) {request : Request}
    (isExecutor : request.executor? = some executor) (has : host.Has executor) :
    Advances host facade (facade.abandon host request) ∧
      (facade.abandon host request).1.IsDestroyed executor := by
  have gone (pending : Pending) : Advances host facade
        (((host.abandon pending).destroy executor).drop executor, facade.clear, .abandoned) ∧
      (((host.abandon pending).destroy executor).drop executor).IsDestroyed executor := by
    have left := host.keeps_abandon pending
    have destroyed := (host.abandon pending).keeps_destroy executor
    have dropped := ((host.abandon pending).destroy executor).keeps_drop executor
    refine ⟨⟨(left.trans destroyed).trans dropped, rfl, rfl, ?_, rfl, rfl⟩, ?_⟩
    · simp [Request.executor?]
    · exact dropped.isDestroyed (Host.isDestroyed_destroy (left.has has))
  cases request with
  | starting same code pending => cases isExecutor; exact gone pending
  | executing same pending => cases isExecutor; exact gone pending
  | finished report => contradiction
  | abandoned => contradiction

theorem keeps_destroy (host : Host) (facade : Facade) : host.Keeps (facade.destroy host) := by
  simp only [destroy]
  cases facade.armed with
  | none => exact .modifyRegistry host _ _
  | some executor =>
      exact (host.keeps_destroy executor).trans (.modifyRegistry _ _ _)

end Operations

/-! ## Worlds -/

namespace World

/-- What the flag and the armed executor say of the requests that were made. -/
inductive Standing (world : World) : Prop where
  /-- No request is in flight. -/
  | idle (nobody : ∀ number, ¬world.InFlight number) (running : world.facade.running = false)
      (armed : world.facade.armed = none) : Standing world
  /-- One request is in flight, and its executor is armed. -/
  | busy {number : Nat} {asked : RunRequest} {request : Request}
      (found : world.futures[number]? = some (.polled asked request))
      (inFlight : request.isInFlight = true)
      (alone : ∀ other, world.InFlight other → other = number)
      (running : world.facade.running = true)
      (armed : world.facade.armed = request.executor?) : Standing world

/-- What holds of a world whatever happened in it. -/
structure Sound (world : World) : Prop where
  standing : world.Standing
  registry : world.facade.registry < world.host.registries.length
  has : ∀ executor, world.facade.armed = some executor → world.host.Has executor
  dropped : ∀ (number : Nat) (executor : Executor),
    world.futures[number]? = some (.dropped (some executor)) → world.host.IsDestroyed executor

theorem sound_fresh (host : Host) (facade : Facade) : (fresh host facade).Sound where
  standing := .idle (by simp [InFlight, fresh]) rfl rfl
  registry := by simp [fresh]
  has := by simp [fresh]
  dropped := by simp [fresh]

/-- Whatever moves behind the executors, the host keeps them. -/
theorem keeps_move (host : Host) (event : Event) : host.Keeps (move host event) := by
  cases event with
  | launched launcher launching awaiting =>
      simp only [move]
      split
      · rename_i waits
        exact host.keeps_deliver launcher launching waits
      · exact .refl host
  | context executor context act =>
      exact ⟨.modify Host.SandboxKept.refl _ fun _ _ => ⟨rfl, id⟩, (Host.Keeps.refl host).workers,
        (Host.Keeps.refl host).toolchainExecutors, Nat.le_refl _⟩
  | interpreter registry handle act => exact .modifyRegistry host _ _
  | request registry handle => exact .modifyRegistry host _ _
  | message registry handle => exact .modifyRegistry host _ _
  | expire registry start => exact .modifyRegistry host _ _
  | release registry handle => exact .modifyRegistry host _ _
  | _ => exact .refl host

section Steps

variable {world : World} {number : Nat}

/-- Only the host has changed. -/
theorem Sound.of_keeps (sound : world.Sound) {host : Host} (keeps : world.host.Keeps host) :
    Sound { world with host } where
  standing := by
    cases sound.standing with
    | idle nobody running armed => exact .idle nobody running armed
    | busy found inFlight alone running armed => exact .busy found inFlight alone running armed
  registry := Nat.lt_of_lt_of_le sound.registry keeps.registries
  has executor armed := keeps.has (sound.has executor armed)
  dropped number executor found := keeps.isDestroyed (sound.dropped number executor found)

theorem inFlight_set {futures : List Future} {future : Future} (host : Host) (facade : Facade)
    (inside : number < futures.length) (other : Nat) :
    InFlight ⟨host, facade, futures.set number future⟩ other ↔
      if number = other then future.isInFlight = true
      else ∃ old, futures[other]? = some old ∧ old.isInFlight = true := by
  simp only [InFlight]
  by_cases same : number = other
  · subst same
    simp [inside]
  · simp [same]

/-- The facade has gone on with a request while no other was in flight. -/
theorem Sound.advance (sound : world.Sound) (asked : RunRequest)
    (inside : number < world.futures.length)
    (alone : ∀ other, world.InFlight other → other = number)
    {after : Host × Facade × Request} (advances : Advances world.host world.facade after) :
    Sound ⟨after.1, after.2.1, world.futures.set number (.polled asked after.2.2)⟩ where
  standing := by
    have others (other : Nat) (different : ¬number = other) :
        ¬InFlight ⟨after.1, after.2.1, world.futures.set number (.polled asked after.2.2)⟩
          other := by
      rw [inFlight_set _ _ inside, if_neg different]
      exact fun inFlight => different (alone other inFlight).symm
    cases standing : after.2.2.isInFlight with
    | false =>
        have unarmed : after.2.2.executor? = none := by
          cases request : after.2.2 <;> simp_all [Request.isInFlight, Request.executor?]
        refine .idle ?_ (by rw [advances.running, standing]) (by rw [advances.armed, unarmed])
        intro other
        by_cases same : number = other
        · rw [inFlight_set _ _ inside, if_pos same]
          simp [Future.isInFlight, standing]
        · exact others other same
    | true =>
        have found : (world.futures.set number (.polled asked after.2.2))[number]? =
            some (.polled asked after.2.2) := by simp [inside]
        refine .busy found standing ?_ (by rw [advances.running, standing]) advances.armed
        intro other inFlight
        by_contra different
        exact others other (fun same => different same.symm) inFlight
  registry := by
    rw [advances.registry]
    exact Nat.lt_of_lt_of_le sound.registry advances.keeps.registries
  has executor armed := by
    rw [advances.armed] at armed
    exact advances.has executor armed
  dropped other executor found := by
    by_cases same : number = other
    · subst same
      simp [inside] at found
    · rw [List.getElem?_set_ne same] at found
      exact advances.keeps.isDestroyed (sound.dropped other executor found)

/-- A future that is not in flight has become another that is not. -/
theorem Sound.replace (sound : world.Sound) {old : Future}
    (found : world.futures[number]? = some old) (resting : old.isInFlight = false)
    (future : Future) (rests : future.isInFlight = false)
    (destroyed : ∀ executor, future = .dropped (some executor) → world.host.IsDestroyed executor) :
    Sound { world with futures := world.futures.set number future } where
  standing := by
    have inside : number < world.futures.length := (List.getElem?_eq_some_iff.mp found).1
    have same (other : Nat) :
        InFlight { world with futures := world.futures.set number future } other ↔
          world.InFlight other := by
      rw [inFlight_set _ _ inside]
      by_cases same : number = other
      · subst same
        simp [InFlight, found, resting, rests]
      · rw [if_neg same]
        rfl
    cases sound.standing with
    | idle nobody running armed =>
        exact .idle (fun other inFlight => nobody other ((same other).mp inFlight)) running armed
    | @busy flying asked request foundFlying inFlight alone running armed =>
        have different : number ≠ flying := by
          rintro rfl
          rw [found] at foundFlying
          cases foundFlying
          rw [show Future.isInFlight (.polled asked request) = request.isInFlight from rfl,
            inFlight] at resting
          contradiction
        refine .busy (by rw [List.getElem?_set_ne different, foundFlying]) inFlight ?_ running armed
        exact fun other flies => alone other ((same other).mp flies)
  registry := sound.registry
  has := sound.has
  dropped other executor foundOther := by
    by_cases same : number = other
    · subst same
      have inside : number < world.futures.length := (List.getElem?_eq_some_iff.mp found).1
      simp only [List.getElem?_set_self inside, Option.some.injEq] at foundOther
      exact destroyed executor foundOther
    · rw [List.getElem?_set_ne same] at foundOther
      exact sound.dropped other executor foundOther

/-- Nobody is in flight while the flag is cleared. -/
theorem Sound.nobody (sound : world.Sound) (idle : world.facade.running = false) (other : Nat) :
    ¬world.InFlight other := by
  cases sound.standing with
  | idle nobody running armed => exact nobody other
  | busy found inFlight alone running armed =>
      rw [running] at idle
      contradiction

/-- The request in flight is the one whose executor is armed. -/
theorem Sound.busy (sound : world.Sound) {asked : RunRequest} {request : Request}
    (found : world.futures[number]? = some (.polled asked request))
    (inFlight : request.isInFlight = true) :
    (∀ other, world.InFlight other → other = number) ∧ world.facade.running = true ∧
      world.facade.armed = request.executor? := by
  have flies : world.InFlight number := ⟨_, found, inFlight⟩
  cases sound.standing with
  | idle nobody running armed => exact absurd flies (nobody number)
  | busy foundFlying _ alone running armed =>
      obtain rfl := alone number flies
      rw [found] at foundFlying
      cases foundFlying
      exact ⟨alone, running, armed⟩

/-- A request that is polled for the first time while another is in flight is refused,
and nothing else changes. -/
theorem poll_refused {asked : RunRequest} (receiver : String → Option Nat)
    (found : world.futures[number]? = some (.created asked))
    (running : world.facade.running = true) :
    world.step (.poll receiver number) = { world with
      futures := world.futures.set number
        (.polled asked (.finished (.refused .alreadyExecuting))) } := by
  simp only [step, poll, found, execute, running, if_true]

/-- A world after a request was polled. -/
inductive Polled (world : World) (receiver : String → Option Nat) (number : Nat) :
    World → Prop where
  /-- It has to wait, or is over. -/
  | still : Polled world receiver number world
  /-- Another is in flight. -/
  | refused {asked : RunRequest} (found : world.futures[number]? = some (.created asked))
      (running : world.facade.running = true) :
      Polled world receiver number { world with
        futures := world.futures.set number
          (.polled asked (.finished (.refused .alreadyExecuting))) }
  | begun {asked : RunRequest} (found : world.futures[number]? = some (.created asked))
      (idle : world.facade.running = false) {after : Host × Facade × Request}
      (executed : world.facade.execute world.host asked = after) :
      Polled world receiver number
        ⟨after.1, after.2.1, world.futures.set number (.polled asked after.2.2)⟩
  | turned {asked : RunRequest} {request : Request}
      (found : world.futures[number]? = some (.polled asked request))
      (inFlight : request.isInFlight = true) {after : Host × Facade × Request}
      (turned : world.facade.turn receiver world.host request = some after) :
      Polled world receiver number
        ⟨after.1, after.2.1, world.futures.set number (.polled asked after.2.2)⟩

theorem polled (world : World) (receiver : String → Option Nat) (number : Nat) :
    Polled world receiver number (world.poll receiver number) := by
  simp only [poll]
  cases found : world.futures[number]? with
  | none => exact .still
  | some future =>
      cases future with
      | created asked =>
          cases running : world.facade.running with
          | true =>
              have refused := poll_refused receiver found running
              simp only [step, poll, found] at refused
              simp only [refused]
              exact .refused found running
          | false => exact .begun found running rfl
      | polled asked request =>
          simp only
          cases turned : world.facade.turn receiver world.host request with
          | none => exact .still
          | some after =>
              have inFlight : request.isInFlight = true := by
                cases request <;> first | rfl | contradiction
              exact .turned found inFlight turned
      | dropped executor => exact .still

/-- A world after a request was dropped. -/
inductive Dropped (world : World) (number : Nat) : World → Prop where
  /-- It is over. -/
  | still : Dropped world number world
  | unbegun {asked : RunRequest} (found : world.futures[number]? = some (.created asked)) :
      Dropped world number { world with futures := world.futures.set number (.dropped none) }
  | abandoned {asked : RunRequest} {request : Request} {executor : Executor}
      (found : world.futures[number]? = some (.polled asked request))
      (inFlight : request.isInFlight = true) (isExecutor : request.executor? = some executor) :
      Dropped world number
        ⟨(world.facade.abandon world.host request).1, (world.facade.abandon world.host request).2.1,
          world.futures.set number (.dropped (some executor))⟩

theorem dropped (world : World) (number : Nat) : Dropped world number (world.drop number) := by
  simp only [drop]
  cases found : world.futures[number]? with
  | none => exact .still
  | some future =>
      cases future with
      | created asked => exact .unbegun found
      | polled asked request =>
          simp only
          cases isExecutor : request.executor? with
          | none => exact .still
          | some executor =>
              exact .abandoned found (Request.isInFlight_iff.mpr ⟨executor, isExecutor⟩) isExecutor
      | dropped executor => exact .still

theorem Sound.poll (sound : world.Sound) (receiver : String → Option Nat) (number : Nat) :
    (world.poll receiver number).Sound := by
  have polled := world.polled receiver number
  generalize world.poll receiver number = after at polled ⊢
  cases polled with
  | still => exact sound
  | refused found running =>
      exact sound.replace found rfl _ rfl fun executor dropped => by contradiction
  | begun found idle executed =>
      subst executed
      exact sound.advance _ (List.getElem?_eq_some_iff.mp found).1
        (fun other inFlight => absurd inFlight (sound.nobody idle other))
        (advances_execute sound.registry idle _)
  | turned found inFlight turned =>
      obtain ⟨alone, running, armed⟩ := sound.busy found inFlight
      exact sound.advance _ (List.getElem?_eq_some_iff.mp found).1 alone
        (advances_turn running armed sound.has turned).2

theorem Sound.drop (sound : world.Sound) (number : Nat) : (world.drop number).Sound := by
  have dropped := world.dropped number
  generalize world.drop number = after at dropped ⊢
  cases dropped with
  | still => exact sound
  | unbegun found => exact sound.replace found rfl _ rfl fun executor dropped => by cases dropped
  | @abandoned asked request executor found inFlight isExecutor =>
      have inside : number < world.futures.length := (List.getElem?_eq_some_iff.mp found).1
      obtain ⟨alone, running, armed⟩ := sound.busy found inFlight
      have has := sound.has executor (armed.trans isExecutor)
      obtain ⟨advances, destroyed⟩ := advances_abandon world.facade isExecutor has
      have left : (world.facade.abandon world.host request).2.2 = .abandoned := by
        cases request <;> first | rfl | contradiction
      have advanced := sound.advance asked inside alone advances
      rw [left] at advanced
      have foundLeft : (world.futures.set number (.polled asked .abandoned))[number]? =
          some (.polled asked .abandoned) := by simp [inside]
      have replaced := advanced.replace foundLeft rfl (.dropped (some executor)) rfl
        fun same isSame => by cases isSame; exact destroyed
      simpa only [List.set_set] using replaced

theorem Sound.make (sound : world.Sound) (asked : RunRequest) :
    Sound { world with futures := world.futures ++ [.created asked] } := by
  have added (other : Nat) {future : Future}
      (found : (world.futures ++ [.created asked])[other]? = some future) :
      world.futures[other]? = some future ∨ future = .created asked := by
    by_cases below : other < world.futures.length
    · rw [List.getElem?_append_left below] at found
      exact .inl found
    · rw [List.getElem?_append_right (Nat.le_of_not_lt below)] at found
      exact .inr (List.mem_singleton.mp (List.mem_of_getElem? found))
  have earlier (other : Nat)
      (inFlight : InFlight { world with futures := world.futures ++ [.created asked] } other) :
      world.InFlight other := by
    obtain ⟨future, found, flies⟩ := inFlight
    rcases added other found with old | rfl
    · exact ⟨future, old, flies⟩
    · contradiction
  refine ⟨?_, sound.registry, sound.has, ?_⟩
  · cases sound.standing with
    | idle nobody running armed =>
        exact .idle (fun other inFlight => nobody other (earlier other inFlight)) running armed
    | busy found inFlight alone running armed =>
        have inside := (List.getElem?_eq_some_iff.mp found).1
        refine .busy (by rw [List.getElem?_append_left inside, found]) inFlight ?_ running armed
        exact fun other flies => alone other (earlier other flies)
  · intro other executor found
    rcases added other found with old | created
    · exact sound.dropped other executor old
    · contradiction

/-- Every event keeps a world sound. -/
theorem Sound.step (sound : world.Sound) (event : Event) : (world.step event).Sound := by
  cases event with
  | make asked => exact sound.make asked
  | poll receiver number => exact sound.poll receiver number
  | drop number => exact sound.drop number
  | provide value => exact sound.of_keeps (world.host.keeps_provide _ value)
  | onInput callback => exact sound.of_keeps ((Host.Keeps.refl world.host).of_eq rfl rfl rfl rfl)
  | destroy => exact sound.of_keeps (keeps_destroy world.host world.facade)
  | launched launcher launching awaiting => exact sound.of_keeps (keeps_move world.host _)
  | context executor context act => exact sound.of_keeps (keeps_move world.host _)
  | interpreter registry handle act => exact sound.of_keeps (keeps_move world.host _)
  | request registry handle => exact sound.of_keeps (keeps_move world.host _)
  | message registry handle => exact sound.of_keeps (keeps_move world.host _)
  | expire registry start => exact sound.of_keeps (keeps_move world.host _)
  | release registry handle => exact sound.of_keeps (keeps_move world.host _)

/-- A world is sound after any events. -/
theorem Sound.run (sound : world.Sound) (events : List Event) : (world.run events).Sound := by
  induction events generalizing world with
  | nil => exact sound
  | cons event events ih => exact ih (sound.step event)

end Steps

/-! ## Requests that are refused -/

/-- Two worlds agree in everything but what became of one request. -/
structure Agrees (number : Nat) (left right : World) : Prop where
  host : right.host = left.host
  facade : right.facade = left.facade
  futures : ∀ other, other ≠ number → right.futures[other]? = left.futures[other]?
  length : right.futures.length = left.futures.length

section Agreement

variable {left right : World} {number : Nat}

/-- The same becomes of another request in both worlds. -/
theorem Agrees.set (agrees : Agrees number left right) (host : Host) (facade : Facade)
    (other : Nat) (future : Future) :
    Agrees number ⟨host, facade, left.futures.set other future⟩
      ⟨host, facade, right.futures.set other future⟩ where
  host := rfl
  facade := rfl
  futures index different := by
    simp only [List.getElem?_set, agrees.length, agrees.futures index different]
  length := by simp only [List.length_set, agrees.length]

/-- What happens to other requests does not depend on that one. -/
theorem Agrees.step (agrees : Agrees number left right) {event : Event}
    (aside : event.future? ≠ some number) : Agrees number (left.step event) (right.step event) := by
  obtain ⟨host, facade, futures⟩ := left
  obtain ⟨host', facade', futures'⟩ := right
  obtain rfl : host' = host := agrees.host
  obtain rfl : facade' = facade := agrees.facade
  have same (other : Nat) (different : some other ≠ some number) :
      futures'[other]? = futures[other]? :=
    agrees.futures other fun equal => different (congrArg some equal)
  cases event with
  | make asked =>
      refine ⟨rfl, rfl, ?_, by simpa [World.step] using agrees.length⟩
      intro other different
      have length : futures'.length = futures.length := agrees.length
      simp only [World.step]
      rw [List.getElem?_append, List.getElem?_append, length, agrees.futures other different]
  | poll receiver other =>
      simp only [World.step, World.poll, same other aside]
      cases futures[other]? with
      | none => exact agrees
      | some future =>
          cases future with
          | created asked => exact agrees.set _ _ other _
          | polled asked request =>
              simp only
              cases facade'.turn receiver host' request with
              | none => exact agrees
              | some after => exact agrees.set _ _ other _
          | dropped executor => exact agrees
  | drop other =>
      simp only [World.step, World.drop, same other aside]
      cases futures[other]? with
      | none => exact agrees
      | some future =>
          cases future with
          | created asked => exact agrees.set _ _ other _
          | polled asked request =>
              simp only
              cases request.executor? with
              | none => exact agrees
              | some executor => exact agrees.set _ _ other _
          | dropped executor => exact agrees
  | _ => exact ⟨rfl, rfl, agrees.futures, agrees.length⟩

theorem Agrees.run (agrees : Agrees number left right) {events : List Event}
    (aside : ∀ event ∈ events, event.future? ≠ some number) :
    Agrees number (left.run events) (right.run events) := by
  induction events generalizing left right with
  | nil => exact agrees
  | cons event events ih =>
      apply ih (agrees.step (aside event List.mem_cons_self))
      exact fun later member => aside later (List.mem_cons_of_mem event member)

end Agreement

/-! ## Single flight -/

/-- The facade runs one request at a time. -/
structure SingleFlight (world : World) : Prop where
  /-- At most one request is in flight. -/
  alone : ∀ first second, world.InFlight first → world.InFlight second → first = second
  /-- While one is, the flag is set, and the armed executor is the one of the request. -/
  busy : ∀ (number : Nat) (asked : RunRequest) (request : Request),
    world.futures[number]? = some (.polled asked request) → request.isInFlight = true →
      world.facade.running = true ∧ world.facade.armed = request.executor?
  /-- While none is, both are cleared. -/
  idle : (∀ number, ¬world.InFlight number) →
    world.facade.running = false ∧ world.facade.armed = none
  /-- The executor of a request that was dropped in flight was destroyed. -/
  dropped : ∀ (number : Nat) (executor : Executor),
    world.futures[number]? = some (.dropped (some executor)) → world.host.IsDestroyed executor
  /-- A request that is polled for the first time while another is in flight is refused,
  and whatever happens then goes as if it had not been polled. -/
  refused : ∀ (number other : Nat) (asked : RunRequest) (receiver : String → Option Nat),
    world.futures[number]? = some (.created asked) → world.InFlight other →
      (world.step (.poll receiver number)).futures[number]? =
          some (.polled asked (.finished (.refused .alreadyExecuting))) ∧
        ∀ events : List Event, (∀ event ∈ events, event.future? ≠ some number) →
          Agrees number (world.run events) ((world.step (.poll receiver number)).run events)

end World

end Polyglot.Facade
