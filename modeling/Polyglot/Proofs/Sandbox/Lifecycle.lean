import Polyglot.Proofs.Sandbox.Release

/-!
# The lifecycle of a sandbox executor

The stage of an executor and the context that it has are kept apart and change at
different points of a call.  What ties them together is the call past the lock: the
stage says what that call does, and while there is none, it says whether there is a
context.  A call that is dropped leaves its stage behind, so only the stage is at the
mercy of the callers; that no context is launched beside another is not.
-/

namespace Polyglot.Sandbox

namespace Executor

/-- The stage of an executor that does nothing. -/
def restingStage (executor : Executor) : Lifecycle :=
  if executor.slot.isSome then .ready else .unstarted

/-- The stage is that of a call past the lock which stands there. -/
def Shows (executor : Executor) : Phase → Prop
  | .launching => executor.lifecycle = .initializing
  | .running _ _ => executor.lifecycle = .executing ∧ executor.slot.isSome = true
  | .queued | .finished _ | .abandoned => True

/-- The stage says what the call past the lock does, or without such a call, whether
there is a context. -/
structure InStep (executor : Executor) : Prop where
  shows : ∀ number phase, executor.phase? number = some phase → executor.Shows phase
  rests : (∀ number, ¬executor.IsInside number) → executor.lifecycle = executor.restingStage

/-- What stands past the lock, the stage and the slot are as before; somebody may have
joined the line for the lock. -/
structure Joins (before after : Executor) : Prop where
  lifecycle : after.lifecycle = before.lifecycle
  slot : after.slot = before.slot
  inside : ∀ number phase, phase.isInside = true →
    (after.phase? number = some phase ↔ before.phase? number = some phase)

/-- What the turn of a call makes of an executor. -/
inductive Advances (before : Executor) (number : Nat) (after : Executor) : Prop where
  /-- The call is over, and has done nothing. -/
  | passes (outcome : Except SandboxError (Option RunResult))
      (was : before.phase? number = some .queued)
      (calls : after.calls = (before.setPhase number (.finished outcome)).calls)
      (lifecycle : after.lifecycle = before.lifecycle) (slot : after.slot = before.slot)
  /-- The call asks for a context because there is none that is still there. -/
  | launches (calls : after.calls = (before.setPhase number .launching).calls)
      (lacks : before.hasOpenContext = false)
      (lifecycle : before.isDestroyed = false → after.lifecycle = .initializing)
  /-- The code of the call goes on. -/
  | continues (old new : Aggregator × List Nat)
      (was : before.phase? number = some (.running old.1 old.2))
      (calls : after.calls = (before.setPhase number (.running new.1 new.2)).calls)
      (lifecycle : after.lifecycle = before.lifecycle) (slot : after.slot = before.slot)
  /-- The code of the call is submitted. -/
  | runs (calls : after.calls = (before.setPhase number (.running {} [])).calls)
      (lifecycle : before.isDestroyed = false → after.lifecycle = .executing)
      (slot : after.slot.isSome = true)
  /-- The call is over. -/
  | ends (outcome : Except SandboxError (Option RunResult))
      (calls : after.calls = (before.setPhase number (.finished outcome)).calls)
      (lifecycle : before.isDestroyed = false → after.lifecycle = after.restingStage)

/-! ## What an advance leaves -/

section Advance

variable {executor before after : Executor} {number : Nat}

theorem phase?_of_calls {phase : Phase} (calls : after.calls = (before.setPhase number phase).calls)
    (other : Nat) :
    after.phase? other =
      if other = number then (before.phase? other).map fun _ => phase
      else before.phase? other := by
  rw [phase?_congr calls, phase?_setPhase]

theorem Joins.inStep (joins : before.Joins after) (inStep : before.InStep) : after.InStep where
  shows number phase called := by
    cases phase with
    | launching =>
        have shown := inStep.shows number _ ((joins.inside number _ rfl).mp called)
        simpa only [Shows, joins.lifecycle] using shown
    | running output pending =>
        have shown := inStep.shows number _ ((joins.inside number _ rfl).mp called)
        simpa only [Shows, joins.lifecycle, joins.slot] using shown
    | queued => trivial
    | finished outcome => trivial
    | abandoned => trivial
  rests nobody := by
    have nobodyBefore : ∀ number, ¬before.IsInside number := by
      rintro number ⟨phase, called, inside⟩
      exact nobody number ⟨phase, (joins.inside number phase inside).mpr called, inside⟩
    rw [joins.lifecycle, inStep.rests nobodyBefore, restingStage, restingStage, joins.slot]

/-- A call changes its phase; it is the only one past the lock, before and afterwards. -/
theorem inStep_of_calls {phase : Phase} (calls : after.calls = (before.setPhase number phase).calls)
    (called : before.GoesOn number)
    (only : ∀ other, before.IsInside other → other = number) (shows : after.Shows phase)
    (rests : phase.isInside = false → after.lifecycle = after.restingStage) : after.InStep where
  shows other found at_ := by
    rw [phase?_of_calls calls] at at_
    by_cases same : other = number
    · obtain ⟨old, oldAt, -⟩ := called
      rw [if_pos same, same, oldAt] at at_
      rw [← Option.some.inj at_]
      exact shows
    · rw [if_neg same] at at_
      cases found with
      | launching => exact absurd (only other ⟨_, at_, rfl⟩) same
      | running output pending => exact absurd (only other ⟨_, at_, rfl⟩) same
      | queued => trivial
      | finished outcome => trivial
      | abandoned => trivial
  rests nobody := by
    apply rests
    obtain ⟨old, oldAt, -⟩ := called
    have now : after.phase? number = some phase := by
      rw [phase?_of_calls calls, if_pos rfl, oldAt]
      rfl
    cases inside : phase.isInside with
    | false => rfl
    | true => exact absurd ⟨phase, now, inside⟩ (nobody number)

theorem isDestroyed_eq_false (stage : executor.lifecycle ≠ .destroyed) :
    executor.isDestroyed = false := by
  simpa [isDestroyed] using stage

theorem restingStage_ne_destroyed (executor : Executor) : executor.restingStage ≠ .destroyed := by
  unfold restingStage
  split <;> simp

/-- The turn of a call that is alone past the lock keeps an executor in step. -/
theorem Advances.inStep (advances : before.Advances number after) (inStep : before.InStep)
    (stands : before.isDestroyed = false) (called : before.GoesOn number)
    (only : ∀ other, before.IsInside other → other = number) : after.InStep := by
  cases advances with
  | passes outcome was calls lifecycle slot =>
      refine inStep_of_calls calls called only trivial fun _ => ?_
      have nobody : ∀ other, ¬before.IsInside other := by
        intro other inside
        obtain rfl := only other inside
        obtain ⟨phase, isPhase, isInside⟩ := inside
        rw [was] at isPhase
        cases isPhase
        contradiction
      rw [lifecycle, inStep.rests nobody, restingStage, restingStage, slot]
  | launches calls lacks lifecycle =>
      exact inStep_of_calls calls called only (lifecycle stands) (by simp [Phase.isInside])
  | continues old new was calls lifecycle slot =>
      have shown := inStep.shows number _ was
      refine inStep_of_calls calls called only ?_ (by simp [Phase.isInside])
      simpa only [Shows, lifecycle, slot] using shown
  | runs calls lifecycle slot =>
      exact inStep_of_calls calls called only ⟨lifecycle stands, slot⟩ (by simp [Phase.isInside])
  | ends outcome calls lifecycle =>
      exact inStep_of_calls calls called only trivial fun _ => lifecycle stands

/-- No turn destroys an executor. -/
theorem Advances.stands (advances : before.Advances number after)
    (stands : before.isDestroyed = false) : after.isDestroyed = false := by
  cases advances with
  | passes _ _ _ lifecycle _ => rwa [isDestroyed_congr lifecycle]
  | launches _ _ lifecycle => simp [isDestroyed, lifecycle stands]
  | continues _ _ _ _ lifecycle _ => rwa [isDestroyed_congr lifecycle]
  | runs _ lifecycle _ => simp [isDestroyed, lifecycle stands]
  | ends _ _ lifecycle =>
      exact isDestroyed_eq_false (lifecycle stands ▸ after.restingStage_ne_destroyed)

/-- A call that asks for a context finds none that is still there. -/
theorem Advances.isLaunching (advances : before.Advances number after) {other : Nat}
    (asks : after.phase? other = some .launching) (idle : before.phase? other ≠ some .launching) :
    other = number ∧ before.hasOpenContext = false := by
  have settled {phase : Phase} (calls : after.calls = (before.setPhase number phase).calls)
      (different : phase ≠ .launching) : False := by
    rw [phase?_of_calls calls] at asks
    split at asks
    · obtain ⟨-, -, same⟩ := Option.map_eq_some_iff.mp asks
      exact different same
    · exact idle asks
  cases advances with
  | passes outcome was calls => exact (settled calls (by simp)).elim
  | launches calls lacks =>
      rw [phase?_of_calls calls] at asks
      split at asks
      · exact ⟨‹_›, lacks⟩
      · exact absurd asks idle
  | continues old new was calls => exact (settled calls (by simp)).elim
  | runs calls => exact (settled calls (by simp)).elim
  | ends outcome calls => exact (settled calls (by simp)).elim

end Advance

/-! ## The turns of a call -/

section Turns

variable {desk desk' : Desk} {before ready after : Executor} {number : Nat}
variable {receiver : String → Option Nat}

/-- An executor made ready for a call: the calls stand as before, and it is not destroyed. -/
structure Prepares (before ready : Executor) : Prop where
  calls : ready.calls = before.calls
  stands : before.isDestroyed = false → ready.isDestroyed = false

theorem Prepares.setPhase (prepares : before.Prepares ready) (number : Nat) (phase : Phase) :
    (ready.setPhase number phase).calls = (before.setPhase number phase).calls :=
  congrArg (List.modify · number _) prepares.calls

theorem lifecycle_transition (stands : ready.isDestroyed = false) (stage : Lifecycle) :
    (ready.transition stage).lifecycle = stage := by
  simp [Executor.transition, stands]

theorem Prepares.transition (prepares : before.Prepares ready) (stage : Lifecycle)
    (other : stage ≠ .destroyed) : before.Prepares (ready.transition stage) where
  calls := by rw [calls_transition, prepares.calls]
  stands stands :=
    isDestroyed_eq_false (by rwa [lifecycle_transition (prepares.stands stands)])

theorem Prepares.release (prepares : before.Prepares ready) : before.Prepares ready.release where
  calls := by rw [calls_release, prepares.calls]
  stands stands := by rw [isDestroyed_congr (lifecycle_release ready), prepares.stands stands]

theorem Prepares.adopt (prepares : before.Prepares ready) : before.Prepares ready.adopt where
  calls := by rw [calls_adopt, prepares.calls]
  stands stands := by rw [isDestroyed_congr (lifecycle_adopt ready), prepares.stands stands]

theorem Prepares.setContext (prepares : before.Prepares ready) (context : Context) :
    before.Prepares (ready.setContext context) where
  calls := by rw [calls_setContext, prepares.calls]
  stands stands := by
    rw [isDestroyed_congr (lifecycle_setContext ready context), prepares.stands stands]

theorem Prepares.refl (executor : Executor) : executor.Prepares executor := ⟨rfl, id⟩

theorem slot_of_context? {context : Context} (found : ready.context? = some context) :
    ready.slot.isSome = true := by
  obtain ⟨number, slot, -⟩ := Option.bind_eq_some_iff.mp found
  rw [slot]
  rfl

theorem Prepares.conclude (prepares : before.Prepares ready) (desk : Desk) (number : Nat)
    (output : Aggregator) (ending : Ending) (kept : ending = .completed → ready.slot.isSome = true)
    (gone : ending = .destroyed → before.isDestroyed = true) :
    before.Advances number (Executor.conclude desk ready number output ending).2 := by
  cases ending with
  | completed =>
      refine .ends _ ((prepares.transition _ (by simp)).setPhase _ _) fun stands => ?_
      simp only [Executor.conclude, lifecycle_finish, restingStage, slot_finish, slot_transition,
        lifecycle_transition (prepares.stands stands), kept rfl, if_true]
  | contextLost =>
      refine .ends _ ((prepares.release.transition _ (by simp)).setPhase _ _) fun stands => ?_
      simp [Executor.conclude, restingStage, lifecycle_transition (prepares.release.stands stands)]
  | destroyed =>
      refine .ends _ (prepares.release.setPhase _ _) fun stands => ?_
      rw [gone rfl] at stands
      contradiction

theorem Prepares.submit (prepares : before.Prepares ready) {context : Context}
    (found : ready.context? = some context) (desk : Desk) (number : Nat) (code : String) :
    before.Advances number (Executor.submit desk ready number code).2 := by
  have drained := (prepares.setContext context.drain).transition .executing (by simp)
  simp only [Executor.submit, found]
  split
  · exact drained.conclude _ _ _ _ (by simp) (by simp)
  · rename_i next _
    refine .runs ((drained.setContext next).setPhase _ _) (fun stands => ?_) ?_
    · simp [lifecycle_transition ((prepares.setContext context.drain).stands stands)]
    · simpa using slot_of_context? found

/-- A call that has the lock and a context goes on with it. -/
theorem Prepares.proceed (prepares : before.Prepares ready) {context : Context}
    (found : ready.context? = some context)
    (rests : before.isDestroyed = false → ready.lifecycle = .ready) (desk : Desk) (number : Nat)
    (purpose : Purpose) : before.Advances number (Executor.proceed desk ready number purpose).2 := by
  cases purpose with
  | start =>
      refine .ends _ (prepares.setPhase _ _) fun stands => ?_
      simp [Executor.proceed, restingStage, slot_of_context? found, rests stands]
  | execute code => exact prepares.submit found desk number code

theorem context?_of_hasOpenContext (isOpen : ready.hasOpenContext = true) :
    ∃ context, ready.context? = some context := by
  obtain ⟨context, found, -⟩ := (Option.any_eq_true ..).mp isOpen
  exact ⟨context, found⟩

theorem advances_turnQueued {purpose : Purpose} (called : before.phase? number = some .queued)
    (turned : turnQueued desk before number purpose = some (desk', after)) :
    before.Advances number after := by
  simp only [turnQueued] at turned
  split at turned
  · contradiction
  · split at turned
    · cases turned
      exact .passes _ called rfl rfl rfl
    · rename_i stands
      split at turned
      · rename_i isOpen
        obtain ⟨context, found⟩ := context?_of_hasOpenContext isOpen
        cases purpose with
        | start =>
            cases turned
            exact .passes _ called rfl rfl rfl
        | execute code =>
            have submitted := (Prepares.refl before).submit found desk number code
            rw [show submit desk before number code = (desk', after) from
              Option.some.inj turned] at submitted
            exact submitted
      · rename_i lacks
        cases turned
        refine .launches (((Prepares.refl before).transition _ (by simp)).setPhase _ _)
          (by simpa using lacks) fun stands => ?_
        rw [lifecycle_setPhase, lifecycle_transition stands]

theorem context?_adopt (executor : Executor) : executor.adopt.context? = some {} := by
  simp [context?, adopt]

theorem advances_launched (desk : Desk) (executor : Executor) (number : Nat) (purpose : Purpose)
    (outcome : Except TransportError Unit) :
    executor.Advances number (launched desk executor number purpose outcome).2 := by
  have prepares := Prepares.refl executor
  cases outcome with
  | ok =>
      have adopted : (executor.adopt.transition .ready).context? = some {} := by
        rw [← context?_adopt executor]
        simp [context?]
      exact (prepares.adopt.transition _ (by simp)).proceed adopted
        (fun stands => lifecycle_transition (prepares.adopt.stands stands) .ready) _ _ _
  | error cause =>
      refine .ends _ ((prepares.release.transition _ (by simp)).setPhase _ _) fun stands => ?_
      simp [launched, restingStage, lifecycle_transition (prepares.release.stands stands)]

theorem advances_turnRunning {output : Aggregator} {pending : List Nat}
    (called : before.phase? number = some (.running output pending))
    (turned : turnRunning receiver desk before number output pending = some (desk', after)) :
    before.Advances number after := by
  have prepares := Prepares.refl before
  simp only [turnRunning] at turned
  split at turned
  · rename_i destroyed
    have concluded := prepares.conclude desk number output .destroyed (by simp)
      fun _ => destroyed
    rw [Option.some.inj turned] at concluded
    exact concluded
  · split at turned
    · have concluded := prepares.conclude desk number output .contextLost (by simp) (by simp)
      rw [Option.some.inj turned] at concluded
      exact concluded
    · rename_i context found
      split at turned
      · rename_i message next _
        have kept := prepares.setContext next
        cases message with
        | stdout data =>
            cases turned
            exact .continues (_, _) (_, _) called (kept.setPhase _ _) (by simp) (by simp)
        | stderr data =>
            cases turned
            exact .continues (_, _) (_, _) called (kept.setPhase _ _) (by simp) (by simp)
        | inputRequest prompt =>
            cases turned
            exact .continues (_, _) (_, _) called (kept.setPhase _ _) (by simp) (by simp)
        | executionComplete =>
            have concluded := kept.conclude desk number output .completed
              (fun _ => by simpa using slot_of_context? found) (by simp)
            rw [show conclude desk (before.setContext next) number output .completed =
              (desk', after) from Option.some.inj turned] at concluded
            exact concluded
      · have concluded := prepares.conclude desk number output .contextLost (by simp)
          (by simp)
        rw [Option.some.inj turned] at concluded
        exact concluded
      · cases pending with
        | nil => simp [answer] at turned
        | cons ticket rest =>
            simp only [answer] at turned
            obtain ⟨value, -, turned⟩ := Option.bind_eq_some_iff.mp turned
            split at turned
            · have concluded := prepares.conclude (desk.modify before.broker (·.take ticket)) number
                output .contextLost (by simp) (by simp)
              rw [Option.some.inj turned] at concluded
              exact concluded
            · rename_i next _
              cases turned
              exact .continues (_, _) (_, _) called ((prepares.setContext next).setPhase _ _)
                (by simp) (by simp)

theorem advances_turn (turned : before.turn receiver desk number = some (desk', after)) :
    before.Advances number after := by
  simp only [turn] at turned
  obtain ⟨call, found, turned⟩ := Option.bind_eq_some_iff.mp turned
  have called := phase?_of_getElem? found
  split at turned
  · rename_i queued
    exact advances_turnQueued (queued ▸ called) turned
  · rename_i output pending running
    exact advances_turnRunning (running ▸ called) turned
  · contradiction
  · contradiction
  · contradiction

/-- Nobody but the holder of the lock is past it. -/
theorem Coherent.only (coherent : before.Coherent) (held : before.lock.holder = some number)
    (other : Nat) (inside : before.IsInside other) : other = number := by
  have holds := coherent.admits.holds other inside
  rw [held] at holds
  exact (Option.some.inj holds).symm

end Turns

/-! ## What happens to an executor -/

/-- What an event makes of an executor unless it destroys it or takes a caller away: nobody
past the lock does anything, or the holder of the lock takes a turn, which may have just
joined the line. -/
inductive Develops (before after : Executor) : Prop where
  | aside (joins : before.Joins after)
  | turn (asked : Executor) (number : Nat) (joins : before.Joins asked)
      (isOpen : asked.hasOpenContext = before.hasOpenContext) (called : asked.GoesOn number)
      (only : ∀ other, asked.IsInside other → other = number)
      (advances : asked.Advances number after)

section Develop

variable {desk desk' : Desk} {before after : Executor} {number : Nat}

theorem Joins.refl (executor : Executor) : executor.Joins executor :=
  ⟨rfl, rfl, fun _ _ _ => Iff.rfl⟩

theorem Joins.of_calls (calls : after.calls = before.calls)
    (lifecycle : after.lifecycle = before.lifecycle) (slot : after.slot = before.slot) :
    before.Joins after :=
  ⟨lifecycle, slot, fun number _ _ => by rw [phase?_congr calls number]⟩

theorem joins_withCall (executor : Executor) (purpose : Purpose) (phase : Phase)
    (outside : phase.isInside = false) : executor.Joins (executor.withCall purpose phase) where
  lifecycle := rfl
  slot := rfl
  inside number found inside := by
    rw [phase?_withCall]
    split
    · rename_i last
      have uncalled : executor.phase? number = none := by simp [phase?, last]
      rw [uncalled]
      refine iff_of_false (fun same => ?_) (by simp)
      rw [Option.some.inj same, inside] at outside
      contradiction
    · rfl

theorem joins_ask (executor : Executor) (purpose : Purpose) :
    executor.Joins (executor.ask purpose) :=
  let joins := executor.joins_withCall purpose .queued rfl
  ⟨joins.lifecycle, joins.slot, joins.inside⟩

theorem Coherent.develops_call (coherent : before.Coherent) (desk : Desk) (purpose : Purpose) :
    before.Develops (before.call desk purpose).2.1 := by
  rcases before.call_eq desk purpose with ⟨outcome, -, -, called⟩ | ⟨turned, first, called⟩
  · rw [called]
    exact .aside (before.joins_withCall purpose _ rfl)
  · have queued : (before.ask purpose).phase? before.calls.length = some .queued := by
      rw [phase?_ask, if_pos rfl]
    rw [called, first]
    cases turn : Executor.turnQueued desk (before.ask purpose) before.calls.length purpose with
    | none => exact .aside (before.joins_ask purpose)
    | some after =>
        exact .turn (before.ask purpose) _ (before.joins_ask purpose) rfl ⟨_, queued, rfl⟩
          ((coherent.ask purpose).only (holder_of_turnQueued turn)) (advances_turnQueued queued turn)

theorem Coherent.develops_turn (coherent : before.Coherent) {receiver : String → Option Nat}
    (turned : before.turn receiver desk number = some (desk', after)) : before.Develops after := by
  have held := coherent.holder_of_turn turned
  exact .turn before number (.refl before) rfl (coherent.admits.goesOn_of_holder held)
    (coherent.only held) (advances_turn turned)

theorem Coherent.develops_launched (coherent : before.Coherent)
    (called : before.phase? number = some .launching) (desk : Desk) (purpose : Purpose)
    (outcome : Except TransportError Unit) :
    before.Develops (before.launched desk number purpose outcome).2 :=
  .turn before number (.refl before) rfl ⟨_, called, rfl⟩
    (coherent.only (coherent.holder_of_inside called rfl)) (advances_launched ..)

theorem Develops.stands (develops : before.Develops after) (stands : before.isDestroyed = false) :
    after.isDestroyed = false := by
  cases develops with
  | aside joins => rwa [isDestroyed_congr joins.lifecycle]
  | turn asked number joins _ _ _ advances =>
      exact advances.stands (by rwa [isDestroyed_congr joins.lifecycle])

theorem Develops.inStep (develops : before.Develops after) (inStep : before.InStep)
    (stands : before.isDestroyed = false) : after.InStep := by
  cases develops with
  | aside joins => exact joins.inStep inStep
  | turn asked number joins _ called only advances =>
      exact advances.inStep (joins.inStep inStep) (by rwa [isDestroyed_congr joins.lifecycle])
        called only

/-- A call begins to wait for a launch only while there is no context that is still there,
and nobody else waits for a launch. -/
theorem Develops.launches (develops : before.Develops after)
    (asks : after.phase? number = some .launching)
    (idle : before.phase? number ≠ some .launching) :
    before.hasOpenContext = false ∧ ∀ other, before.phase? other ≠ some .launching := by
  cases develops with
  | aside joins => exact absurd ((joins.inside number _ rfl).mp asks) idle
  | turn asked caller joins isOpen called only advances =>
      have unasked : asked.phase? number ≠ some .launching := fun launching =>
        idle ((joins.inside number _ rfl).mp launching)
      obtain ⟨rfl, lacks⟩ := advances.isLaunching asks unasked
      refine ⟨isOpen ▸ lacks, fun other launching => ?_⟩
      have inside := (joins.inside other _ rfl).mpr launching
      obtain rfl := only other ⟨_, inside, rfl⟩
      exact unasked inside

end Develop

end Executor

/-! ## Events -/

namespace Place

variable {place : Place}

theorem develops_step (coherent : place.executor.Coherent) (event : Event)
    (stays : event ≠ .destroy) (kept : ∀ number, event ≠ .abandon number) :
    place.executor.Develops (place.step event).executor := by
  cases event with
  | call purpose => exact coherent.develops_call place.desk purpose
  | poll receiver number =>
      simp only [step]
      cases turned : place.executor.turn receiver place.desk number with
      | none => exact .aside (.refl _)
      | some after => exact coherent.develops_turn turned
  | launched number outcome =>
      simp only [step]
      split
      · rename_i launching
        exact coherent.develops_launched (isInside_of_isLaunching launching) _ _ _
      · exact .aside (.refl _)
  | abandon number => exact absurd rfl (kept number)
  | destroy => exact absurd rfl stays
  | context number act => exact .aside (.of_calls rfl rfl rfl)
  | desk desk => exact .aside (.refl _)

/-- An event that neither destroys the executor nor takes a caller away keeps it in step. -/
theorem inStep_run (coherent : place.executor.Coherent) (stands : place.executor.isDestroyed = false)
    (inStep : place.executor.InStep) (events : List Event) (stays : .destroy ∉ events)
    (kept : ∀ number, .abandon number ∉ events) : (place.run events).executor.InStep := by
  induction events generalizing place with
  | nil => exact inStep
  | cons event events ih =>
      simp only [List.mem_cons, not_or] at stays kept
      have develops := develops_step coherent event (Ne.symm stays.1) fun number =>
        Ne.symm (kept number).1
      exact ih (coherent_step coherent event) (develops.stands stands)
        (develops.inStep inStep stands) stays.2 fun number => (kept number).2

/-- A call begins to wait for a launch only while there is no context that is still there,
and nobody else waits for a launch. -/
theorem launches_step (coherent : place.executor.Coherent) (event : Event) {number : Nat}
    (asks : (place.step event).executor.phase? number = some .launching)
    (idle : place.executor.phase? number ≠ some .launching) :
    place.executor.hasOpenContext = false ∧
      ∀ other, place.executor.phase? other ≠ some .launching := by
  cases event with
  | abandon caller =>
      refine absurd ?_ idle
      simp only [step, Executor.abandon] at asks
      split at asks
      · exact asks
      · change (place.executor.setPhase caller .abandoned).phase? number = _ at asks
        rw [Executor.phase?_setPhase] at asks
        split at asks
        · obtain ⟨-, -, same⟩ := Option.map_eq_some_iff.mp asks
          contradiction
        · exact asks
  | destroy =>
      refine absurd ?_ idle
      have calls : (place.step .destroy).executor.calls = place.executor.calls := by
        simp only [step, Executor.destroy]
        split
        · rfl
        · dsimp only
          split <;> simp
      rwa [Executor.phase?_congr calls] at asks
  | call purpose =>
      exact (develops_step coherent (.call purpose) (by simp) (by simp)).launches asks idle
  | poll receiver caller =>
      exact (develops_step coherent (.poll receiver caller) (by simp) (by simp)).launches asks idle
  | launched caller outcome =>
      exact (develops_step coherent (.launched caller outcome) (by simp) (by simp)).launches asks idle
  | context context act =>
      exact (develops_step coherent (.context context act) (by simp) (by simp)).launches asks idle
  | desk desk => exact absurd asks idle

end Place

namespace Executor

theorem isLaunching_iff {executor : Executor} {number : Nat} :
    executor.isLaunching number = true ↔ executor.phase? number = some .launching :=
  ⟨Place.isInside_of_isLaunching, fun launching => by simp [isLaunching, launching]⟩

theorem isLaunching_eq_false_iff {executor : Executor} {number : Nat} :
    executor.isLaunching number = false ↔ executor.phase? number ≠ some .launching := by
  rw [← Bool.not_eq_true, isLaunching_iff]

/-- Without a context that is still there the slot is empty or holds one that is gone. -/
theorem Coherent.empty_or_closed {executor : Executor} (coherent : executor.Coherent)
    (lacks : executor.hasOpenContext = false) :
    executor.slot = none ∨
      ∃ context, executor.context? = some context ∧ context.isClosed = true := by
  cases slot : executor.slot with
  | none => exact .inl rfl
  | some number =>
      obtain ⟨context, found⟩ : ∃ context, executor.contexts[number]? = some context :=
        ⟨_, List.getElem?_eq_getElem (coherent.slot_lt number slot)⟩
      have held : executor.context? = some context := by simp [context?, slot, found]
      refine .inr ⟨context, held, ?_⟩
      simpa [hasOpenContext, held] using lacks

/-- What an executor in step shows while nobody is past the lock. -/
theorem InStep.stage {executor : Executor} (inStep : executor.InStep) (coherent : executor.Coherent)
    (idle : executor.IsIdle) :
    (executor.lifecycle = .unstarted ↔ executor.slot = none) ∧
      (executor.lifecycle = .ready ↔ ∃ context, executor.context? = some context) ∧
      executor.lifecycle ≠ .initializing ∧ executor.lifecycle ≠ .executing := by
  have rests := inStep.rests fun number ⟨phase, called, inside⟩ =>
    idle number ⟨phase, called, Phase.goesOn_of_isInside inside⟩
  cases slot : executor.slot with
  | none => simp [rests, restingStage, context?, slot]
  | some number =>
      have found := List.getElem?_eq_getElem (coherent.slot_lt number slot)
      simp [rests, restingStage, context?, slot, found]

end Executor

namespace Place

/-- However calls, launches and contexts interleave on an executor that is not destroyed: a
launch begins only while the slot is empty or holds a context that is gone, and while no other
launch is waited for, so at most one context is held at any time.  If no caller went away, then
whenever no call is in flight the stage says whether there is a context. -/
theorem lifecycle_follows_slot (desk : Desk) (language : String) (broker : Nat)
    (events : List Event) (stays : .destroy ∉ events) :
    let executor := ((fresh desk language broker).run events).executor
    (∀ (event : Event) (number : Nat), executor.isLaunching number = false →
      ((fresh desk language broker).run (events ++ [event])).executor.isLaunching number = true →
      (executor.slot = none ∨
        ∃ context, executor.context? = some context ∧ context.isClosed = true) ∧
      ∀ other, executor.isLaunching other = false) ∧
    (∀ first second, executor.isLaunching first = true → executor.isLaunching second = true →
      first = second) ∧
    (∀ (first second : Nat) (one another : Context), executor.contexts[first]? = some one →
      one.hostOpen = true → executor.contexts[second]? = some another →
      another.hostOpen = true → first = second) ∧
    ((∀ number, .abandon number ∉ events) → executor.IsIdle →
      (executor.lifecycle = .unstarted ↔ executor.slot = none) ∧
      (executor.lifecycle = .ready ↔ ∃ context, executor.context? = some context) ∧
      executor.lifecycle ≠ .initializing ∧ executor.lifecycle ≠ .executing) := by
  intro executor
  have coherent : executor.Coherent := coherent_run_fresh desk language broker events
  refine ⟨fun event number idle asks => ?_, fun first second one another => ?_,
    fun first second one another found isOpen foundToo isOpenToo => ?_, fun kept idle => ?_⟩
  · rw [run_append] at asks
    have ⟨lacks, nobody⟩ := launches_step coherent event (Executor.isLaunching_iff.mp asks)
      (Executor.isLaunching_eq_false_iff.mp idle)
    exact ⟨coherent.empty_or_closed lacks, fun other =>
      Executor.isLaunching_eq_false_iff.mpr (nobody other)⟩
  · have held := coherent.holder_of_inside (Executor.isLaunching_iff.mp one) rfl
    exact (coherent.only held second ⟨_, Executor.isLaunching_iff.mp another, rfl⟩).symm
  · have slot := coherent.slot_of_open first one found isOpen
    rw [coherent.slot_of_open second another foundToo isOpenToo] at slot
    exact (Option.some.inj slot).symm
  · have fresh : (Place.fresh desk language broker).executor.InStep :=
      ⟨by simp [Place.fresh, Executor.phase?], fun _ => rfl⟩
    have inStep := inStep_run (Executor.coherent_fresh language broker) rfl fresh events stays kept
    exact inStep.stage coherent idle

/-- An executor is ready while it keeps a context that went away, and the next call launches
another one in its place. -/
theorem lifecycle_after_context_loss :
    ∃ executor, executor = ((fresh {} "javascript" 0).run
        [.call .start, .launched 0 (.ok ()), .context 0 .leave]).executor ∧
      executor.IsIdle ∧ executor.lifecycle = .ready ∧ executor.isLaunching 1 = false ∧
      ((fresh {} "javascript" 0).run ([.call .start, .launched 0 (.ok ()), .context 0 .leave] ++
        [.call (.execute "a")])).executor.isLaunching 1 = true ∧
      ∃ context, executor.context? = some context ∧ context.isClosed = true := by
  obtain ⟨launches, -, -, shows⟩ := lifecycle_follows_slot {} "javascript" 0
    [.call .start, .launched 0 (.ok ()), .context 0 .leave] (by simp)
  have idle : ((fresh {} "javascript" 0).run
      [.call .start, .launched 0 (.ok ()), .context 0 .leave]).executor.IsIdle :=
    Executor.isIdle_of_all rfl
  obtain ⟨-, ready, -, -⟩ := shows (by simp) idle
  obtain ⟨empty | closed, -⟩ := launches (.call (.execute "a")) 1 rfl rfl
  · contradiction
  · exact ⟨_, rfl, idle, ready.mpr ⟨_, rfl⟩, rfl, rfl, closed⟩

end Place

end Polyglot.Sandbox
