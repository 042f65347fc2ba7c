import Polyglot.Proofs.Worker.Destruction
import Polyglot.Proofs.Worker.Letting

/-!
# What a turn of a call of a worker executor comes to

A call waits for a worker, lets the run of its code take a turn, or returns the result of
that run.  While it waits, no run on any worker takes a turn.
-/

namespace Polyglot.Worker

/-- Whether a call neither runs code nor has a result. -/
def CallPhase.isIdle : CallPhase → Bool
  | .running _ _ | .finished (.ok (some _)) => false
  | .begun | .acquiring _ | .finished (.ok none) | .finished (.error _) | .abandoned => true

namespace Executor

/-- A call has gone to a phase, or was made there; the others stand where they stood. -/
structure Goes (before : Executor) (number : Nat) (purpose : Purpose) (phase : CallPhase)
    (after : Executor) : Prop where
  own : after.calls[number]? = some ⟨purpose, phase⟩
  was : ∀ call, before.calls[number]? = some call → call.purpose = purpose
  others : ∀ other, other ≠ number → after.calls[other]? = before.calls[other]?

variable {executor middle after : Executor} {number : Nat} {purpose : Purpose}
  {phase : CallPhase}

theorem goes_setPhase (called : executor.calls[number]? = some ⟨purpose, phase⟩)
    (next : CallPhase) : executor.Goes number purpose next (executor.setPhase number next) where
  own := by simp [setPhase, called]
  was call found := by
    rw [called] at found
    cases found
    rfl
  others other different := by
    have isOther : ¬number = other := fun same => different same.symm
    simp [setPhase, isOther]

/-- A call is made. -/
theorem goes_call (executor : Executor) (purpose : Purpose) (phase : CallPhase) :
    executor.Goes executor.calls.length purpose phase
      { executor with calls := executor.calls ++ [⟨purpose, phase⟩] } where
  own := List.getElem?_concat_length
  was call found := by simp at found
  others other different := by
    by_cases inside : other < executor.calls.length
    · exact List.getElem?_append_left inside
    · rw [List.getElem?_eq_none, List.getElem?_eq_none]
      · omega
      · simp only [List.length_append, List.length_singleton]
        omega

theorem goes_refl (called : executor.calls[number]? = some ⟨purpose, phase⟩) :
    executor.Goes number purpose phase executor where
  own := called
  was call found := by
    rw [called] at found
    cases found
    rfl
  others _ _ := rfl

theorem Goes.trans {between : CallPhase} (left : executor.Goes number purpose between middle)
    (right : middle.Goes number purpose phase after) :
    executor.Goes number purpose phase after where
  own := right.own
  was := left.was
  others other different := (right.others other different).trans (left.others other different)

end Executor

namespace Place

/-- What holds of the workers and the calls of a place. -/
structure Stands (place : Place) : Prop where
  proper : place.registry.Proper
  listens : ∀ (number : Nat) (worker : Handle), place.registry.handles[number]? = some worker →
    worker.Listens
  seated : ∀ (number : Nat) (purpose : Purpose) (handle run : Nat),
    place.executor.calls[number]? = some ⟨purpose, .running handle run⟩ →
    ∃ code worker, purpose = .execute code ∧
      place.registry.handles[handle]? = some worker ∧ worker.code? run = some code

/-- A call has gone to a phase and has at most looked at what the registry keeps. -/
structure Asks (before : Place) (number : Nat) (purpose : Purpose) (phase : CallPhase)
    (after : Place) : Prop where
  goes : before.executor.Goes number purpose phase after.executor
  lets : before.registry.Lets after.registry
  handles : after.registry.handles = before.registry.handles

/-- No run on a worker takes a turn, and a call that has gone to another phase neither runs code
there nor has a result. -/
structure Eases (before after : Place) : Prop where
  lets : before.registry.Lets after.registry
  calls : ∀ (number : Nat) (call : Call), after.executor.calls[number]? = some call →
    before.executor.calls[number]? = some call ∨ call.phase.isIdle = true
  stays : ∀ (number : Nat) (purpose : Purpose) (phase : CallPhase),
    before.executor.calls[number]? = some ⟨purpose, phase⟩ →
    ∃ next, after.executor.calls[number]? = some ⟨purpose, next⟩

/-- What a call does in a turn. -/
inductive Deed (before : Place) (number : Nat) (after : Place) : Prop where
  /-- The call does not run code afterwards. -/
  | wait (eases : before.Eases after)
      (idle : ∀ handle run, after.executor.phase? number ≠ some (.running handle run))
  /-- The run of the code takes a turn. -/
  | work {code : String} {handle run : Nat} {worker next : Handle}
      (goes : before.executor.Goes number (.execute code) (.running handle run) after.executor)
      (own : before.executor.phase? number = some (.running handle run) ∨
        run = worker.runs.length)
      (works : before.registry.Works handle worker run next after.registry)
      (isCode : next.code? run = some code)
  /-- The call has the result of its run. -/
  | answer {purpose : Purpose} {handle run : Nat} {worker : Handle} {result : RunResult}
      (was : before.executor.calls[number]? = some ⟨purpose, .running handle run⟩)
      (goes : before.executor.Goes number purpose (.finished (.ok (some result))) after.executor)
      (registry : after.registry = before.registry)
      (found : before.registry.handles[handle]? = some worker)
      (stage : worker.stage run = .returned result)

variable {before place after : Place} {number handle start : Nat} {purpose : Purpose}
  {phase : CallPhase} {code : String}

theorem Eases.refl (place : Place) : place.Eases place :=
  ⟨.refl _, fun _ _ => .inl, fun _ _ phase called => ⟨phase, called⟩⟩

/-- A call has gone to a phase where it does not run code. -/
theorem eases_of_goes (goes : before.executor.Goes number purpose phase after.executor)
    (idle : phase.isIdle = true) (lets : before.registry.Lets after.registry) :
    before.Eases after where
  lets := lets
  calls other call called := by
    by_cases same : other = number
    · rw [same, goes.own] at called
      cases called
      exact .inr idle
    · rw [goes.others other same] at called
      exact .inl called
  stays other isPurpose was called := by
    by_cases same : other = number
    · rw [same] at called
      cases goes.was _ called
      exact ⟨phase, same ▸ goes.own⟩
    · exact ⟨was, (goes.others other same).trans called⟩

theorem deed_of_goes (goes : before.executor.Goes number purpose phase after.executor)
    (idle : phase.isIdle = true) (lets : before.registry.Lets after.registry) :
    before.Deed number after := by
  apply Deed.wait (eases_of_goes goes idle lets)
  intro handle run stage
  rw [Executor.phase?, goes.own, Option.map_some] at stage
  cases stage
  contradiction

/-- A call goes on and does not run code. -/
theorem Asks.wait (asks : before.Asks number purpose phase place) {next : CallPhase}
    (idle : next.isIdle = true) : before.Deed number (place.setPhase number next) :=
  deed_of_goes (asks.goes.trans (Executor.goes_setPhase asks.goes.own next)) idle asks.lets

/-- A call has its worker. -/
theorem Asks.proceed (asks : before.Asks number purpose phase place) (stands : before.Stands)
    (lent : place.registry.Lent handle) :
    before.Deed number (place.proceed number handle purpose) := by
  cases purpose with
  | start => exact asks.wait rfl
  | execute code =>
      simp only [Place.proceed]
      split
      · exact asks.wait rfl
      · rename_i worker found
        have wasFound : before.registry.handles[handle]? = some worker := asks.handles ▸ found
        have listens := stands.listens handle worker wasFound
        have works := Registry.works_modifyHandle found lent
          (worker.wanes_run place.desk place.executor.broker code) (Handle.deed_run listens ..)
        apply Deed.work
        · exact asks.goes.trans (Executor.goes_setPhase asks.goes.own _)
        · exact .inr rfl
        · exact works.of_lets asks.lets asks.handles
        · exact Handle.code?_run listens ..

/-- A call that waits for a start lets it go on, or has its outcome. -/
theorem Asks.turn (asks : before.Asks number purpose (.acquiring start) place)
    (stands : before.Stands)
    (turned : place.turnAcquiring number start purpose = some after) :
    before.Deed number after := by
  simp only [turnAcquiring] at turned
  split at turned
  · obtain ⟨registry, goesOn, turned⟩ := Option.bind_eq_some_iff.mp turned
    cases turned
    have proper := asks.lets.proper stands.proper
    exact deed_of_goes asks.goes rfl (asks.lets.trans (Registry.lets_turnStart proper goesOn))
  · rename_i outcome settled
    have lets := asks.lets.trans (Registry.lets_collect settled place.executor.language)
    have handles := (place.registry.handles_collect place.executor.language start outcome).trans
      asks.handles
    have collects : before.Asks number purpose (.acquiring start)
        { place with registry := place.registry.collect place.executor.language start outcome } :=
      ⟨asks.goes, lets, handles⟩
    cases outcome with
    | ok handle =>
        cases turned
        apply collects.proceed stands
        apply Registry.Lent.mono ⟨start, settled⟩
        exact place.registry.succeeds_collect place.executor.language start (.ok handle)
    | error cause =>
        cases turned
        exact collects.wait rfl

/-- Somebody calls an executor. -/
theorem deed_call (stands : place.Stands) (purpose : Purpose) :
    place.Deed place.executor.calls.length (place.call purpose).1 := by
  simp only [call]
  split
  · exact deed_of_goes (Executor.goes_call ..) rfl (.refl _)
  · have lets := place.registry.lets_acquire place.executor.language place.executor.launcher
      place.executor.timeout
    have asks (phase : CallPhase) : place.Asks place.executor.calls.length purpose phase
        { place with
          registry := (place.registry.acquire place.executor.language place.executor.launcher
            place.executor.timeout).1
          executor := { place.executor with
            calls := place.executor.calls ++ [⟨purpose, phase⟩] } } :=
      ⟨Executor.goes_call .., lets, place.registry.handles_acquire ..⟩
    split
    · rename_i registry handle acquired
      have lent := stands.proper.tidy.lent_of_held acquired
      have begins := asks .begun
      rw [acquired] at begins
      exact begins.proceed stands lent
    · rename_i registry start acquired
      have joins := asks (.acquiring start)
      rw [acquired] at joins
      cases turned : turnAcquiring { place with
          registry
          executor := { place.executor with
            calls := place.executor.calls ++ [⟨purpose, .acquiring start⟩] } }
          place.executor.calls.length start purpose with
      | none => exact deed_of_goes joins.goes rfl joins.lets
      | some after => exact joins.turn stands turned

/-- A worker that runs code was handed out. -/
theorem Stands.lent (stands : place.Stands) {worker : Handle} {run : Nat}
    (found : place.registry.handles[handle]? = some worker)
    (isCode : worker.code? run = some code) :
    place.registry.Lent handle := by
  apply stands.proper.lent handle worker found
  intro unused
  simp [Handle.code?, unused] at isCode

/-- The run of a call takes a turn. -/
theorem Stands.work (stands : place.Stands) {run : Nat} {worker next : Handle}
    (called : place.executor.calls[number]? = some ⟨purpose, .running handle run⟩)
    (found : place.registry.handles[handle]? = some worker) (deed : worker.Deed run next)
    (wanes : worker.Wanes next) (desk : Desk) :
    place.Deed number { place with
      desk, registry := place.registry.modifyHandle handle fun _ => next } := by
  obtain ⟨code, same, rfl, isSame, isCode⟩ := stands.seated number purpose handle run called
  rw [found] at isSame
  cases isSame
  apply Deed.work
  · exact Executor.goes_refl called
  · exact .inl (by rw [Executor.phase?, called, Option.map_some])
  · exact Registry.works_modifyHandle found (stands.lent found isCode) wanes deed
  · exact deed.spares.keeps.code? isCode

/-- A call that does nothing stands where it stands. -/
theorem deed_refl (stands : place.Stands) (number : Nat) : place.Deed number place := by
  by_cases runs : ∃ purpose handle run,
      place.executor.calls[number]? = some ⟨purpose, .running handle run⟩
  · obtain ⟨purpose, handle, run, called⟩ := runs
    obtain ⟨code, worker, rfl, found, isCode⟩ := stands.seated number purpose handle run called
    apply Deed.work (Executor.goes_refl called)
    · exact .inl (by rw [Executor.phase?, called, Option.map_some])
    · exact Registry.works_refl found (stands.lent found isCode) run
    · exact isCode
  · apply Deed.wait (.refl place)
    intro handle run stage
    obtain ⟨⟨purpose, phase⟩, called, rfl⟩ := Option.map_eq_some_iff.mp stage
    exact runs ⟨purpose, handle, run, called⟩

/-- A call takes a turn. -/
theorem deed_turn (stands : place.Stands) {receiver : String → Option Nat}
    (turned : place.turn receiver number = some after) : place.Deed number after := by
  simp only [turn] at turned
  obtain ⟨⟨purpose, phase⟩, called, turned⟩ := Option.bind_eq_some_iff.mp turned
  cases phase with
  | acquiring start =>
      have asks : place.Asks number purpose (.acquiring start) place :=
        ⟨Executor.goes_refl called, .refl _, rfl⟩
      exact asks.turn stands turned
  | running handle run =>
      simp only [turnRunning] at turned
      obtain ⟨worker, found, turned⟩ := Option.bind_eq_some_iff.mp turned
      split at turned
      · rename_i result isOver
        cases turned
        apply Deed.answer called
        · exact Executor.goes_setPhase called _
        · rfl
        · exact found
        · exact Handle.stage_of_result? isOver
      · obtain ⟨⟨desk, next⟩, moved, turned⟩ := Option.bind_eq_some_iff.mp turned
        cases turned
        have deed := Handle.deed_turn (stands.listens handle worker found) moved
        exact stands.work called found deed (Handle.wanes_turn moved) desk
  | begun => contradiction
  | finished outcome => contradiction
  | abandoned => contradiction

/-- A call takes a turn, or has to wait. -/
theorem deed_poll (stands : place.Stands) (receiver : String → Option Nat) (number : Nat) :
    place.Deed number ((place.turn receiver number).getD place) := by
  cases turned : place.turn receiver number with
  | none => exact place.deed_refl stands number
  | some after => exact deed_turn stands turned

/-- The caller of a call goes away. -/
theorem eases_abandon (place : Place) (number : Nat) : place.Eases (place.abandon number) := by
  simp only [abandon]
  split
  · rename_i start stage
    obtain ⟨⟨purpose, phase⟩, called, rfl⟩ := Option.map_eq_some_iff.mp stage
    exact eases_of_goes (Executor.goes_setPhase called .abandoned) rfl (.refl _)
  · rename_i handle run stage
    obtain ⟨⟨purpose, phase⟩, called, rfl⟩ := Option.map_eq_some_iff.mp stage
    split
    · exact eases_of_goes (Executor.goes_setPhase called .abandoned) rfl (.refl _)
    · rename_i worker found
      apply eases_of_goes
      · exact Executor.goes_setPhase called .abandoned
      · rfl
      apply Registry.lets_modifyHandle
      · exact forall_of_getElem? found (worker.wanes_abandon ..)
      · exact forall_of_getElem? found (worker.lets_abandon ..)
  all_goals exact .refl place

theorem eases_destroy (place : Place) : place.Eases place.destroy := by
  simp only [destroy]
  split
  · exact .refl place
  · have same := Eases.refl place
    exact ⟨place.registry.lets_shutdown _, same.calls, same.stays⟩

end Place

end Polyglot.Worker
