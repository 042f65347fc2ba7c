import Polyglot.Proofs.Sandbox.Destruction

/-!
# What a destroyed sandbox executor keeps

Destroying an executor that nobody uses lets its context go at once, and otherwise
leaves that to the holder of the lock.  A run does it.  A call that has just been
handed the lock does not, and neither does a call that only waits for a context to
be launched: these are the two ways in which a context outlives the executor.
-/

namespace Polyglot.Sandbox

namespace Executor

/-- The lock belongs to a call that has not looked yet, and there is a context. -/
def IsHandedOver (executor : Executor) : Prop :=
  ∃ number, executor.lock.holder = some number ∧
    executor.phase? number = some .queued ∧ executor.slot ≠ none

/-- An executor is idle when every call is over. -/
theorem isIdle_of_all {executor : Executor}
    (ended : executor.calls.all (fun call => !call.phase.goesOn) = true) : executor.IsIdle := by
  intro number inFlight
  obtain ⟨phase, found, goesOn⟩ := inFlight
  obtain ⟨call, foundCall, rfl⟩ := Option.map_eq_some_iff.mp found
  rw [List.all_eq_true] at ended
  simpa [goesOn] using ended call (List.mem_of_getElem? foundCall)

/-- A context that is not in the slot was let go. -/
theorem Coherent.closed_of_slot_eq_none {executor : Executor} (coherent : executor.Coherent)
    (empty : executor.slot = none) : ∀ context ∈ executor.contexts, context.hostOpen = false := by
  intro context member
  obtain ⟨number, found⟩ := List.getElem?_of_mem member
  by_contra isOpen
  have kept := coherent.slot_of_open number context found (by simpa using isOpen)
  rw [empty] at kept
  contradiction

end Executor

namespace Place

/-- A call to have a context waits for a launch, which succeeds in what follows. -/
def PreparesIn (place : Place) (events : List Event) : Prop :=
  ∃ number, place.executor.calls[number]? = some ⟨.start, .launching⟩ ∧
    launchOf number events = some (.ok ())

section Destroy

variable {place : Place}

@[simp] theorem calls_destroy (place : Place) :
    (place.step .destroy).executor.calls = place.executor.calls := by
  simp only [step, Executor.destroy]
  split
  · rfl
  · split <;> simp

/-- The context is let go at once only if nobody holds the lock. -/
theorem slot_destroy (undestroyed : place.executor.isDestroyed = false) :
    (place.step .destroy).executor.slot =
      if place.executor.lock.isFree then none else place.executor.slot := by
  simp only [step, Executor.destroy, undestroyed, Bool.false_eq_true, if_false]
  split <;> simp

theorem onlyInside_destroy {number : Nat} {call : Call}
    (only : place.executor.OnlyInside number call) :
    (place.step .destroy).executor.OnlyInside number call where
  found := by rw [calls_destroy]; exact only.found
  inside := only.inside
  unique := by rw [calls_destroy]; exact only.unique

theorem atRest_destroy (rest : place.executor.AtRest) :
    (place.step .destroy).executor.AtRest := by
  intro number call found
  rw [calls_destroy] at found
  exact rest number call found

end Destroy

/-- Where no call is past the lock, destroying lets the context go unless the lock was
handed to a call that has not looked. -/
theorem slot_destroy_of_atRest {place : Place} (coherent : place.executor.Coherent)
    (undestroyed : place.executor.isDestroyed = false) (rest : place.executor.AtRest) :
    (place.step .destroy).executor.slot = none ↔ ¬place.executor.IsHandedOver := by
  rw [slot_destroy undestroyed]
  cases held : place.executor.lock.holder with
  | none =>
      have free : place.executor.lock.isFree = true := by simp [Lock.isFree, held]
      simp [free, Executor.IsHandedOver, held]
  | some number =>
      have taken : place.executor.lock.isFree = false := by simp [Lock.isFree, held]
      have queued : place.executor.phase? number = some .queued := by
        obtain ⟨phase, found, goesOn⟩ := coherent.admits.goesOn_of_holder held
        obtain ⟨call, foundCall, rfl⟩ := Option.map_eq_some_iff.mp found
        have outside := rest number call foundCall
        rw [found]
        cases standing : call.phase <;> simp_all [Phase.goesOn, Phase.isInside]
      simp [taken, Executor.IsHandedOver, held, queued]

/-- A destroyed executor that is idle has let every context go, unless the lock had
just been handed over when it was destroyed or a call to have a context was waiting
for a launch that succeeded. -/
theorem released_iff (desk : Desk) (language : String) (broker : Nat)
    (before after : List Event)
    (undestroyed : ((fresh desk language broker).run before).executor.isDestroyed = false)
    (stays : ∀ number, .abandon number ∉ after)
    (idle : ((fresh desk language broker).run (before ++ .destroy :: after)).executor.IsIdle) :
    (((fresh desk language broker).run (before ++ .destroy :: after)).executor.slot = none ∧
      ∀ context ∈ ((fresh desk language broker).run (before ++ .destroy :: after)).executor.contexts,
        context.hostOpen = false) ↔
    ¬((fresh desk language broker).run before).executor.IsHandedOver ∧
      ¬((fresh desk language broker).run before).PreparesIn after := by
  have final := coherent_run_fresh desk language broker (before ++ .destroy :: after)
  have coherent := coherent_run_fresh desk language broker before
  rw [and_iff_left_of_imp final.closed_of_slot_eq_none]
  rw [run_append, run_cons] at idle ⊢
  generalize (fresh desk language broker).run before = place at coherent undestroyed idle ⊢
  have destroyed := isDestroyed_destroy place
  rcases coherent.atRest_or_onlyInside with rest | ⟨number, ⟨purpose, phase⟩, only⟩
  · obtain ⟨slot, -⟩ := atRest_run destroyed (atRest_destroy rest) after
    have unprepared : ¬place.PreparesIn after := by
      rintro ⟨number, launching, -⟩
      have outside := rest number _ launching
      contradiction
    rw [slot, slot_destroy_of_atRest coherent undestroyed rest]
    simp [unprepared]
  · have held := coherent.holder_of_inside (Executor.phase?_of_getElem? only.found) only.inside
    have unqueued : ¬place.executor.IsHandedOver := by
      rintro ⟨other, otherHeld, queued, -⟩
      rw [held] at otherHeld
      obtain rfl := Option.some.inj otherHeld
      simp only [Executor.phase?, only.found, Option.map_some, Option.some.injEq] at queued
      have inside := only.inside
      simp [queued, Phase.isInside] at inside
    rw [and_iff_right unqueued]
    cases phase with
    | launching =>
        obtain ⟨-, slot⟩ := launching_run destroyed (onlyInside_destroy only) after
        rw [slot stays idle, not_iff_not]
        constructor
        · rintro ⟨rfl, launched⟩
          exact ⟨number, only.found, launched⟩
        · rintro ⟨other, launching, launched⟩
          obtain rfl := only.unique other _ launching rfl
          have found := only.found
          rw [launching] at found
          cases found
          exact ⟨rfl, launched⟩
    | running output pending =>
        obtain ⟨-, slot⟩ := running_run destroyed (onlyInside_destroy only) after
        have unprepared : ¬place.PreparesIn after := by
          rintro ⟨other, launching, -⟩
          obtain rfl := only.unique other _ launching rfl
          have found := only.found
          rw [launching] at found
          cases found
        exact iff_of_true (slot stays idle) unprepared
    | queued => exact absurd only.inside (by simp [Phase.isInside])
    | finished outcome => exact absurd only.inside (by simp [Phase.isInside])
    | abandoned => exact absurd only.inside (by simp [Phase.isInside])

/-- An executor that is destroyed while its code runs lets the context go. -/
theorem released_during_run :
    ∃ final, final = (fresh {} "javascript" 0).run
        ([.call (.execute "a"), .launched 0 (.ok ())] ++ .destroy :: [.poll (fun _ => none) 0]) ∧
      final.executor.IsIdle ∧ final.executor.slot = none ∧
      ∀ context ∈ final.executor.contexts, context.hostOpen = false := by
  have idle : ((fresh {} "javascript" 0).run ([.call (.execute "a"), .launched 0 (.ok ())] ++
      .destroy :: [.poll (fun _ => none) 0])).executor.IsIdle := Executor.isIdle_of_all rfl
  refine ⟨_, rfl, idle, ?_⟩
  rw [released_iff {} "javascript" 0 _ _ rfl (by simp) idle]
  constructor
  · rintro ⟨number, held, queued, -⟩
    obtain rfl : 0 = number := Option.some.inj held
    have running : some (Phase.running {} []) = some .queued := queued
    cases running
  · rintro ⟨number, -, launched⟩
    contradiction

/-- A context outlives an executor that is destroyed while a call to have one waits for
its launch, and one that is destroyed when the lock has just been handed over. -/
theorem kept_after_destroy :
    (∃ final, final = (fresh {} "javascript" 0).run
        [.call .start, .destroy, .launched 0 (.ok ())] ∧
      final.executor.isDestroyed = true ∧ final.executor.IsIdle ∧ final.executor.slot = some 0 ∧
      final.executor.contexts = [{}]) ∧
    ∃ final, final = (fresh {} "javascript" 0).run
        [.call (.execute "a"), .call (.execute "b"), .launched 0 (.ok ()),
          .context 0 (.say .executionComplete), .poll (fun _ => none) 0, .destroy,
          .poll (fun _ => none) 1] ∧
      final.executor.isDestroyed = true ∧ final.executor.IsIdle ∧ final.executor.slot = some 0 ∧
      (final.executor.contexts[0]?.map (·.hostOpen)) = some true :=
  ⟨⟨_, rfl, rfl, Executor.isIdle_of_all rfl, rfl, rfl⟩,
    ⟨_, rfl, rfl, Executor.isIdle_of_all rfl, rfl, rfl⟩⟩

end Place

end Polyglot.Sandbox
