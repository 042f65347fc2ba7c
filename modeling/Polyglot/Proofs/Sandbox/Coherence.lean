import Polyglot.Proofs.Sandbox.Interleaving

/-!
# Coherence of a sandbox executor

Every event keeps an executor coherent.  The operations are built from a few
steps, and each of these is shown to keep coherence on its own: a holder of the
lock goes on or ends its call, a stage is reached, a context is used, let go or
adopted.
-/

namespace Polyglot.Sandbox

namespace Executor

/-- An executor that nobody has called is coherent. -/
theorem coherent_fresh (language : String) (broker : Nat) :
    Coherent { language, broker } where
  admits := .empty (by simp [GoesOn, phase?]) (by simp [IsInside, phase?])
  slot_lt := by simp
  slot_of_open := by simp

/-- Coherence reads neither the stage nor the desk. -/
theorem Coherent.congr {before after : Executor} (coherent : before.Coherent)
    (lock : after.lock = before.lock) (calls : after.calls = before.calls)
    (slot : after.slot = before.slot) (contexts : after.contexts = before.contexts) :
    after.Coherent where
  admits := by
    rw [lock, goesOn_congr calls, isInside_congr calls]
    exact coherent.admits
  slot_lt := by rw [slot, contexts]; exact coherent.slot_lt
  slot_of_open := by rw [slot, contexts]; exact coherent.slot_of_open

section Steps

variable {executor : Executor} {number : Nat}

theorem Coherent.transition (coherent : executor.Coherent) (stage : Lifecycle) :
    (executor.transition stage).Coherent :=
  coherent.congr (by simp) (by simp) (by simp) (by simp)

/-- The holder of the lock goes on. -/
theorem Coherent.setPhase (coherent : executor.Coherent)
    (held : executor.lock.holder = some number) {phase : Phase} (goesOn : phase.goesOn = true) :
    (executor.setPhase number phase).Coherent where
  admits := by
    have holderGoesOn := coherent.admits.goesOn_of_holder held
    apply coherent.admits.congr
    · intro caller
      simp only [GoesOn, phase?_setPhase]
      split
      · subst caller
        obtain ⟨old, found, oldGoesOn⟩ := holderGoesOn
        simp [found, goesOn, oldGoesOn]
      · rfl
    · intro caller inside
      by_cases same : caller = number
      · rw [same]
        exact held
      · apply coherent.admits.holds
        simpa [IsInside, phase?_setPhase, same] using inside
  slot_lt := coherent.slot_lt
  slot_of_open := coherent.slot_of_open

/-- A call that goes on comes to its end or is given up, and leaves the lock. -/
theorem Coherent.leave (coherent : executor.Coherent) {phase : Phase}
    (ended : phase.goesOn = false) :
    { executor.setPhase number phase with lock := executor.lock.leave number }.Coherent where
  admits := by
    have inside : phase.isInside = false := by
      cases phase <;> simp_all [Phase.goesOn, Phase.isInside]
    have phaseOf (caller : Nat) :
        Executor.phase? { executor.setPhase number phase with
          lock := executor.lock.leave number } caller =
            (executor.setPhase number phase).phase? caller := rfl
    apply coherent.admits.leave
    · intro caller
      simp only [GoesOn, phaseOf, phase?_setPhase]
      by_cases same : caller = number
      · subst caller
        cases executor.phase? number <;> simp [ended]
      · simp [same]
    · intro caller entered
      simp only [IsInside, phaseOf, phase?_setPhase] at entered ⊢
      by_cases same : caller = number
      · subst caller
        cases found : executor.phase? number <;> simp [found, inside] at entered
      · simpa [same] using entered
  slot_lt := coherent.slot_lt
  slot_of_open := coherent.slot_of_open

theorem Coherent.finish (coherent : executor.Coherent)
    (outcome : Except SandboxError (Option RunResult)) :
    (executor.finish number outcome).Coherent :=
  coherent.leave rfl

theorem Coherent.setContext (coherent : executor.Coherent) (context : Context) :
    (executor.setContext context).Coherent := by
  cases slot : executor.slot with
  | none => simpa [Executor.setContext, slot] using coherent
  | some number =>
      have contexts : (executor.setContext context).contexts =
          executor.contexts.set number context := by
        simp [Executor.setContext, slot]
      refine ⟨?_, ?_, ?_⟩
      · rw [lock_setContext, goesOn_congr (calls_setContext executor context),
          isInside_congr (calls_setContext executor context)]
        exact coherent.admits
      · intro kept keptSlot
        simpa [contexts] using coherent.slot_lt kept (by simpa using keptSlot)
      · intro index found at_ isOpen
        rw [slot_setContext]
        by_cases same : number = index
        · rw [slot, same]
        · rw [contexts, List.getElem?_set_ne same] at at_
          exact coherent.slot_of_open index found at_ isOpen

theorem Coherent.release (coherent : executor.Coherent) : executor.release.Coherent := by
  cases slot : executor.slot with
  | none => simpa [Executor.release, slot] using coherent
  | some number =>
      refine ⟨?_, by simp, ?_⟩
      · rw [lock_release, goesOn_congr (calls_release executor),
          isInside_congr (calls_release executor)]
        exact coherent.admits
      · intro index found at_ isOpen
        simp only [Executor.release, slot, List.getElem?_modify] at at_
        by_cases same : number = index
        · subst index
          cases old : executor.contexts[number]? with
          | none => simp [old] at at_
          | some context =>
              simp only [old, if_true, Option.map_eq_map, Option.map_some,
                Option.some.injEq] at at_
              simp [← at_, Link.dropHost] at isOpen
        · simp only [same, if_false, Option.map_eq_map, Option.map_id_fun', id_eq] at at_
          have kept := coherent.slot_of_open index found at_ isOpen
          rw [slot] at kept
          exact absurd (Option.some.inj kept) same

theorem Coherent.adopt (coherent : executor.Coherent) : executor.adopt.Coherent := by
  have released := coherent.release
  refine ⟨?_, ?_, ?_⟩
  · rw [lock_adopt, goesOn_congr (calls_adopt executor), isInside_congr (calls_adopt executor)]
    exact coherent.admits
  · intro index slot
    simp only [slot_adopt, Option.some.injEq] at slot
    simp [Executor.adopt, ← slot]
  · intro index found at_ isOpen
    simp only [Executor.adopt] at at_
    by_cases last : index < executor.release.contexts.length
    · rw [List.getElem?_append_left last] at at_
      have kept := released.slot_of_open index found at_ isOpen
      simp at kept
    · rw [List.getElem?_append_right (Nat.le_of_not_lt last)] at at_
      have position : index - executor.release.contexts.length < 1 := by
        obtain ⟨below, -⟩ := List.getElem?_eq_some_iff.mp at_
        simpa using below
      rw [slot_adopt]
      simp only [length_contexts_release] at last position
      congr 1
      omega

/-- The context of a number does something at its end of the link. -/
theorem Coherent.act (coherent : executor.Coherent) (act : Link.Act SandboxMessage) :
    { executor with contexts := executor.contexts.modify number (·.act act) }.Coherent where
  admits := coherent.admits
  slot_lt kept slot := by simpa using coherent.slot_lt kept slot
  slot_of_open index found at_ isOpen := by
    rw [List.getElem?_modify] at at_
    cases old : executor.contexts[index]? with
    | none => simp [old] at at_
    | some context =>
        apply coherent.slot_of_open index context old
        by_cases same : number = index
        · simp only [old, same, if_true, Option.map_eq_map, Option.map_some,
            Option.some.injEq] at at_
          rwa [← at_, Link.hostOpen_act] at isOpen
        · simp only [old, same, if_false, Option.map_eq_map, Option.map_some,
            Option.some.injEq] at at_
          rwa [at_]

end Steps

/-! ## Operations -/

section Operations

variable {desk desk' : Desk} {executor executor' : Executor} {number : Nat}
variable {receiver : String → Option Nat}

theorem Coherent.conclude (coherent : executor.Coherent) (desk : Desk) (number : Nat)
    (output : Aggregator) (ending : Ending) :
    (Executor.conclude desk executor number output ending).2.Coherent := by
  cases ending with
  | completed => exact (coherent.transition _).finish _
  | contextLost => exact (coherent.release.transition _).finish _
  | destroyed => exact coherent.release.finish _

theorem Coherent.submit (coherent : executor.Coherent)
    (held : executor.lock.holder = some number) (desk : Desk) (code : String) :
    (Executor.submit desk executor number code).2.Coherent := by
  cases found : executor.context? with
  | none =>
      simp only [Executor.submit, found]
      exact coherent.finish _
  | some context =>
      have ready := (coherent.setContext context.drain).transition .executing
      simp only [Executor.submit, found]
      split
      · exact ready.conclude _ _ _ _
      · exact (ready.setContext _).setPhase (by simpa using held) rfl

theorem Coherent.proceed (coherent : executor.Coherent)
    (held : executor.lock.holder = some number) (desk : Desk) (purpose : Purpose) :
    (Executor.proceed desk executor number purpose).2.Coherent := by
  cases purpose with
  | start => exact coherent.finish _
  | execute code => exact coherent.submit held desk code

theorem Coherent.turnQueued (coherent : executor.Coherent) {purpose : Purpose}
    (turned : Executor.turnQueued desk executor number purpose = some (desk', executor')) :
    executor'.Coherent := by
  simp only [Executor.turnQueued] at turned
  split at turned
  · contradiction
  · rename_i held
    have held : executor.lock.holder = some number := by simpa using held
    split at turned
    · cases turned
      exact coherent.finish _
    · split at turned
      · have proceeded := coherent.proceed held desk purpose
        rw [Option.some.inj turned] at proceeded
        exact proceeded
      · cases turned
        exact (coherent.transition _).setPhase (by simpa using held) rfl

theorem Coherent.receive (coherent : executor.Coherent)
    (held : executor.lock.holder = some number) (receiver : String → Option Nat) (desk : Desk)
    (output : Aggregator) (pending : List Nat) (message : SandboxMessage) :
    (Executor.receive receiver desk executor number output pending message).2.Coherent := by
  cases message with
  | stdout data => exact coherent.setPhase held rfl
  | stderr data => exact coherent.setPhase held rfl
  | inputRequest prompt => exact coherent.setPhase held rfl
  | executionComplete => exact coherent.conclude _ _ _ _

theorem Coherent.answer (coherent : executor.Coherent)
    (held : executor.lock.holder = some number) {context : Context} {output : Aggregator}
    {pending : List Nat}
    (answered : Executor.answer desk executor number context output pending =
      some (desk', executor')) : executor'.Coherent := by
  cases pending with
  | nil => simp [Executor.answer] at answered
  | cons ticket rest =>
      simp only [Executor.answer] at answered
      obtain ⟨value, -, answered⟩ := Option.bind_eq_some_iff.mp answered
      split at answered
      · have concluded := coherent.conclude
          (desk.modify executor.broker (·.take ticket)) number output .contextLost
        rw [Option.some.inj answered] at concluded
        exact concluded
      · cases answered
        exact (coherent.setContext _).setPhase (by simpa using held) rfl

theorem Coherent.turnRunning (coherent : executor.Coherent)
    (held : executor.lock.holder = some number) {output : Aggregator} {pending : List Nat}
    (turned : Executor.turnRunning receiver desk executor number output pending =
      some (desk', executor')) : executor'.Coherent := by
  simp only [Executor.turnRunning] at turned
  split at turned
  · have concluded := coherent.conclude desk number output .destroyed
    rw [Option.some.inj turned] at concluded
    exact concluded
  · split at turned
    · have concluded := coherent.conclude desk number output .contextLost
      rw [Option.some.inj turned] at concluded
      exact concluded
    · split at turned
      · rename_i message context _
        have received := (coherent.setContext context).receive
          (by simpa using held) receiver desk output pending message
        rw [Option.some.inj turned] at received
        exact received
      · have concluded := coherent.conclude desk number output .contextLost
        rw [Option.some.inj turned] at concluded
        exact concluded
      · exact coherent.answer held turned

/-- A call whose code runs holds the lock. -/
theorem Coherent.holder_of_inside (coherent : executor.Coherent) {phase : Phase}
    (found : executor.phase? number = some phase) (inside : phase.isInside = true) :
    executor.lock.holder = some number :=
  coherent.admits.holds number ⟨phase, found, inside⟩

/-- A call that takes a turn holds the lock. -/
theorem holder_of_turnQueued {purpose : Purpose}
    (turned : Executor.turnQueued desk executor number purpose = some (desk', executor')) :
    executor.lock.holder = some number := by
  simp only [Executor.turnQueued] at turned
  split at turned
  · contradiction
  · rename_i held
    simpa using held

theorem Coherent.holder_of_turn (coherent : executor.Coherent)
    (turned : executor.turn receiver desk number = some (desk', executor')) :
    executor.lock.holder = some number := by
  simp only [Executor.turn] at turned
  obtain ⟨call, found, turned⟩ := Option.bind_eq_some_iff.mp turned
  split at turned
  · exact holder_of_turnQueued turned
  · rename_i output pending running
    exact coherent.holder_of_inside (phase?_of_getElem? found) (by simp [running, Phase.isInside])
  · contradiction
  · contradiction
  · contradiction

theorem Coherent.turn (coherent : executor.Coherent)
    (turned : executor.turn receiver desk number = some (desk', executor')) :
    executor'.Coherent := by
  simp only [Executor.turn] at turned
  obtain ⟨call, found, turned⟩ := Option.bind_eq_some_iff.mp turned
  split at turned
  · exact coherent.turnQueued turned
  · rename_i output pending running
    have held := coherent.holder_of_inside (phase?_of_getElem? found)
      (by simp [running, Phase.isInside])
    exact coherent.turnRunning held turned
  · contradiction
  · contradiction
  · contradiction

theorem Coherent.withCall (coherent : executor.Coherent) (purpose : Purpose)
    (outcome : Except SandboxError (Option RunResult)) :
    (executor.withCall purpose (.finished outcome)).Coherent where
  admits := by
    have new : executor.phase? executor.calls.length = none := by simp [phase?]
    apply coherent.admits.congr
    · intro caller
      simp only [GoesOn, phase?_withCall]
      split
      · subst caller
        simp [new, Phase.goesOn]
      · rfl
    · intro caller inside
      apply coherent.admits.holds
      simp only [IsInside, phase?_withCall] at inside ⊢
      split at inside
      · simp [Phase.isInside] at inside
      · exact inside
  slot_lt := coherent.slot_lt
  slot_of_open := coherent.slot_of_open

theorem Coherent.ask (coherent : executor.Coherent) (purpose : Purpose) :
    (executor.ask purpose).Coherent where
  admits := by
    apply coherent.admits.enter
    · simp [GoesOn, phase?]
    · intro caller
      simp only [GoesOn, phase?_ask]
      by_cases last : caller = executor.calls.length
      · simp [last, Phase.goesOn]
      · simp [last]
    · intro caller inside
      simp only [IsInside, phase?_ask] at inside ⊢
      split at inside
      · simp [Phase.isInside] at inside
      · exact inside
  slot_lt := coherent.slot_lt
  slot_of_open := coherent.slot_of_open

theorem Coherent.call (coherent : executor.Coherent) (desk : Desk) (purpose : Purpose) :
    (executor.call desk purpose).2.1.Coherent := by
  rcases executor.call_eq desk purpose with ⟨outcome, -, -, called⟩ | ⟨turned, first, called⟩
  · rw [called]
    exact coherent.withCall purpose outcome
  · rw [called, first]
    cases turn : Executor.turnQueued desk (executor.ask purpose) executor.calls.length purpose with
    | none => exact coherent.ask purpose
    | some after => exact (coherent.ask purpose).turnQueued turn

theorem Coherent.launched (coherent : executor.Coherent)
    (held : executor.lock.holder = some number) (desk : Desk) (purpose : Purpose)
    (outcome : Except TransportError Unit) :
    (Executor.launched desk executor number purpose outcome).2.Coherent := by
  cases outcome with
  | ok => exact (coherent.adopt.transition .ready).proceed (by simpa using held) desk purpose
  | error cause => exact (coherent.release.transition .unstarted).finish _

theorem Coherent.abandon (coherent : executor.Coherent) (desk : Desk) (number : Nat) :
    (executor.abandon desk number).2.Coherent := by
  simp only [Executor.abandon]
  split
  · exact coherent
  · exact coherent.leave rfl

theorem Coherent.destroy (coherent : executor.Coherent) (desk : Desk) :
    (executor.destroy desk).2.Coherent := by
  have marked : { executor with lifecycle := .destroyed }.Coherent :=
    coherent.congr rfl rfl rfl rfl
  simp only [Executor.destroy]
  split
  · exact coherent
  · split
    · exact marked.release
    · exact marked

end Operations

end Executor

/-! ## Events -/

namespace Place

theorem isInside_of_isLaunching {executor : Executor} {number : Nat}
    (launching : executor.isLaunching number = true) :
    executor.phase? number = some .launching := by
  simp only [Executor.isLaunching] at launching
  split at launching
  · assumption
  · contradiction

/-- An event keeps an executor coherent. -/
theorem coherent_step {place : Place} (coherent : place.executor.Coherent) (event : Event) :
    (place.step event).executor.Coherent := by
  cases event with
  | call purpose => exact coherent.call place.desk purpose
  | poll receiver number =>
      simp only [step]
      cases turned : place.executor.turn receiver place.desk number with
      | none => exact coherent
      | some after => exact coherent.turn turned
  | launched number outcome =>
      simp only [step]
      split
      · rename_i launching
        have held := coherent.holder_of_inside (isInside_of_isLaunching launching) rfl
        exact coherent.launched held _ _ _
      · exact coherent
  | abandon number => exact coherent.abandon place.desk number
  | destroy => exact coherent.destroy place.desk
  | context number act => exact coherent.act act
  | desk desk => exact coherent

/-- An executor is coherent after any events. -/
theorem coherent_run {place : Place} (coherent : place.executor.Coherent)
    (events : List Event) : (place.run events).executor.Coherent := by
  induction events generalizing place with
  | nil => exact coherent
  | cons event events ih => exact ih (coherent_step coherent event)

theorem coherent_run_fresh (desk : Desk) (language : String) (broker : Nat)
    (events : List Event) : ((fresh desk language broker).run events).executor.Coherent :=
  coherent_run (Executor.coherent_fresh language broker) events

end Place

end Polyglot.Sandbox
