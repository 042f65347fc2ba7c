import Polyglot.Proofs.Sandbox.Coherence

/-!
# Sandbox executors after they were destroyed

A destroyed executor refuses whatever comes, so all that is left to happen is the
work of the one call that was past the lock.  A call whose code runs lets the
context go when it looks.  A call that waits for a launch does not look again once
the launch has succeeded: it takes the context, and if it has code, submits it.
-/

namespace Polyglot.Sandbox

namespace Executor

/-- The messages on the way to a context. -/
def outbox (executor : Executor) (number : Nat) : List HostMessage :=
  (executor.contexts[number]?.map (·.toContext)).getD []

/-- The messages that were put on the links between two states. -/
def sent (before after : Executor) : List HostMessage :=
  (List.range after.contexts.length).flatMap fun number =>
    (after.outbox number).drop (before.outbox number).length

/-- Nothing is sent where no queue grows. -/
theorem sent_eq_nil {before after : Executor}
    (shorter : ∀ number, (after.outbox number).length ≤ (before.outbox number).length) :
    before.sent after = [] := by
  simp only [sent, List.flatMap_eq_nil_iff, List.drop_eq_nil_iff]
  intro number _
  exact shorter number

theorem outbox_congr {before after : Executor} (same : after.contexts = before.contexts)
    (number : Nat) : after.outbox number = before.outbox number := by
  simp [outbox, same]

theorem sent_congr {before after after' : Executor} (same : after'.contexts = after.contexts) :
    before.sent after' = before.sent after := by
  simp only [sent, same, outbox_congr same]

@[simp] theorem outbox_release (executor : Executor) (number : Nat) :
    executor.release.outbox number = executor.outbox number := by
  cases slot : executor.slot with
  | none => simp [release, slot]
  | some kept =>
      simp only [outbox, release, slot, List.getElem?_modify]
      by_cases same : kept = number
      · cases executor.contexts[number]? <;> simp [same, Link.dropHost]
      · simp [same]

/-- No call is past the lock. -/
def AtRest (executor : Executor) : Prop :=
  ∀ (number : Nat) (call : Call), executor.calls[number]? = some call →
    call.phase.isInside = false

/-- What an event leaves as it was that has nothing to do with the call past the
lock. -/
structure Idles (before after : Executor) : Prop where
  destroyed : after.isDestroyed = true
  slot : after.slot = before.slot
  sent : before.sent after = []
  inside : ∀ (number : Nat) (call : Call), call.phase.isInside = true →
    (after.calls[number]? = some call ↔ before.calls[number]? = some call)

theorem isDestroyed_congr {before after : Executor} (same : after.lifecycle = before.lifecycle) :
    after.isDestroyed = before.isDestroyed := by
  simp [isDestroyed, same]

theorem transition_of_isDestroyed {executor : Executor} (destroyed : executor.isDestroyed = true)
    (stage : Lifecycle) : executor.transition stage = executor := by
  simp [transition, destroyed]

theorem Idles.refl {executor : Executor} (destroyed : executor.isDestroyed = true) :
    executor.Idles executor :=
  ⟨destroyed, rfl, sent_eq_nil fun _ => Nat.le_refl _, fun _ _ _ => Iff.rfl⟩

/-- A change of a call that neither was nor becomes past the lock. -/
theorem getElem?_modify_iff {calls : List Call} {number : Nat} {phase : Phase}
    (ended : phase.isInside = false)
    (outside : ∀ call, calls[number]? = some call → call.phase.isInside = false)
    (other : Nat) (call : Call) (inside : call.phase.isInside = true) :
    (calls.modify number fun call => { call with phase })[other]? = some call ↔
      calls[other]? = some call := by
  simp only [List.getElem?_modify]
  by_cases same : number = other
  · subst other
    cases found : calls[number]? with
    | none => simp
    | some old =>
        have oldOutside := outside old found
        simp only [if_true, Option.map_eq_map, Option.map_some, Option.some.injEq]
        constructor
        · intro equal
          rw [← equal] at inside
          simp [ended] at inside
        · intro equal
          rw [equal] at oldOutside
          simp [oldOutside] at inside
  · cases calls[other]? <;> simp [same]

/-- A call that is not past the lock ends on a destroyed executor. -/
theorem Idles.leave {executor : Executor} (destroyed : executor.isDestroyed = true)
    {number : Nat} {phase : Phase} (ended : phase.isInside = false)
    (outside : ∀ call, executor.calls[number]? = some call → call.phase.isInside = false) :
    executor.Idles
      { executor.setPhase number phase with lock := executor.lock.leave number } :=
  ⟨destroyed, rfl, sent_eq_nil fun _ => Nat.le_refl _, getElem?_modify_iff ended outside⟩

theorem Idles.trans {first second third : Executor} (left : first.Idles second)
    (right : second.Idles third) (same : third.contexts = second.contexts)
    (same' : second.contexts = first.contexts) : first.Idles third :=
  ⟨right.destroyed, right.slot.trans left.slot,
    sent_eq_nil fun number =>
      Nat.le_of_eq (congrArg List.length (outbox_congr (same.trans same') number)),
    fun number call inside =>
      (right.inside number call inside).trans (left.inside number call inside)⟩

/-- A call that has just been made is not past the lock. -/
theorem Idles.withCall {executor : Executor} (destroyed : executor.isDestroyed = true)
    (purpose : Purpose) {phase : Phase} (ended : phase.isInside = false) (lock : Lock) :
    executor.Idles { executor.withCall purpose phase with lock } := by
  refine ⟨destroyed, rfl, sent_eq_nil fun _ => Nat.le_refl _, ?_⟩
  intro number call inside
  simp only [Executor.withCall]
  by_cases below : number < executor.calls.length
  · rw [List.getElem?_append_left below]
  · rw [List.getElem?_append_right (Nat.le_of_not_lt below),
      List.getElem?_eq_none (Nat.le_of_not_lt below)]
    constructor
    · intro found
      have member := List.mem_of_getElem? found
      obtain rfl : call = ⟨purpose, phase⟩ := by simpa using member
      simp [ended] at inside
    · intro found
      contradiction

/-! ## Turns of a destroyed executor -/

section Turns

variable {desk desk' : Desk} {executor executor' : Executor} {number : Nat}
variable {receiver : String → Option Nat}

theorem turnQueued_of_isDestroyed (destroyed : executor.isDestroyed = true) {purpose : Purpose}
    (turned : turnQueued desk executor number purpose = some (desk', executor')) :
    executor' = executor.finish number (.error .destroyed) := by
  simp only [turnQueued, destroyed, if_true] at turned
  split at turned
  · contradiction
  · cases turned
    rfl

theorem turnRunning_of_isDestroyed (destroyed : executor.isDestroyed = true)
    {output : Aggregator} {pending : List Nat}
    (turned : turnRunning receiver desk executor number output pending =
      some (desk', executor')) :
    executor' = executor.release.finish number (.ok (some output.finish)) := by
  simp only [turnRunning, destroyed, if_true, conclude] at turned
  cases turned
  rfl

/-- The context that a destroyed executor takes when the launch that a call waits
for succeeds after all, with the messages that are sent to it at once. -/
def adoptWith (executor : Executor) (messages : List HostMessage) : Executor :=
  { executor.adopt with
    contexts := executor.release.contexts ++ [{ toContext := messages }] }

theorem adopt_eq_adoptWith (executor : Executor) : executor.adopt = executor.adoptWith [] := by
  simp [adoptWith, adopt]

theorem sent_adoptWith (executor : Executor) (messages : List HostMessage) :
    executor.sent (executor.adoptWith messages) = messages := by
  have old (number : Nat) (below : number < executor.contexts.length) :
      (executor.adoptWith messages).outbox number = executor.outbox number := by
    have earlier : number < executor.release.contexts.length := by simpa using below
    rw [← outbox_release executor number]
    simp only [adoptWith, outbox, List.getElem?_append_left earlier]
  have new : (executor.adoptWith messages).outbox executor.contexts.length = messages := by
    simp [adoptWith, outbox]
  have none : executor.outbox executor.contexts.length = [] := by simp [outbox]
  have length : (executor.adoptWith messages).contexts.length =
      executor.contexts.length + 1 := by simp [adoptWith]
  rw [sent, length, List.range_succ, List.flatMap_append, List.flatMap_singleton, new, none]
  have nothing : ((List.range executor.contexts.length).flatMap fun number =>
      ((executor.adoptWith messages).outbox number).drop (executor.outbox number).length) = [] := by
    simp only [List.flatMap_eq_nil_iff, List.drop_eq_nil_iff, List.mem_range]
    intro number below
    exact Nat.le_of_eq (congrArg List.length (old number below))
  rw [nothing]
  rfl

/-- The launch that a call waits for has an outcome although the executor was
destroyed: the call goes on as if it had not been. -/
theorem launched_of_isDestroyed (destroyed : executor.isDestroyed = true) (purpose : Purpose)
    (outcome : Except TransportError Unit) :
    (launched desk executor number purpose outcome).2 =
      match outcome, purpose with
      | .error cause, _ => executor.release.finish number (.error (.launch cause))
      | .ok (), .start => (executor.adoptWith []).finish number (.ok none)
      | .ok (), .execute code =>
        (executor.adoptWith [.executeCode (Scan.prepareForSandbox code)]).setPhase number
          (.running {} []) := by
  have released : executor.release.isDestroyed = true := by
    rw [isDestroyed_congr (lifecycle_release executor), destroyed]
  have adopted : executor.adopt.isDestroyed = true := by
    rw [isDestroyed_congr (lifecycle_adopt executor), destroyed]
  cases outcome with
  | error cause => simp only [launched, transition_of_isDestroyed released]
  | ok nothing =>
      simp only [launched, transition_of_isDestroyed adopted]
      cases purpose with
      | start => rw [← adopt_eq_adoptWith]; rfl
      | execute code =>
          have fresh : executor.adopt.context? = some {} := by
            simp [context?, adopt]
          have drained : (executor.adopt.setContext ({} : Context).drain).isDestroyed = true := by
            rw [isDestroyed_congr (lifecycle_setContext _ _), adopted]
          simp only [proceed, submit, fresh, transition_of_isDestroyed drained]
          simp [Link.hostSend?, Link.drain, setContext, adoptWith, adopt, setPhase]

end Turns

end Executor

/-! ## Events at a destroyed executor -/

/-- Whether an event ends the waiting of a call for a launch, if the call waits for
one. -/
def Event.settles (number : Nat) : Event → Bool
  | .launched other _ => other = number
  | .abandon other => other = number
  | _ => false

/-- The outcome of a launch that an event tells a call of. -/
def Event.launchOutcome? : Event → Option (Except TransportError Unit)
  | .launched _ outcome => some outcome
  | _ => none

namespace Place

/-- What an event does to a destroyed executor.  Either it does not concern the call
past the lock, or that call takes a turn, learns of its launch or is given up. -/
inductive Concerns (place : Place) (after : Executor) : Event → Prop where
  | nobody {event : Event} (idles : place.executor.Idles after)
      (aside : ∀ (number : Nat) (purpose : Purpose),
        place.executor.calls[number]? = some ⟨purpose, .launching⟩ →
          event.settles number = false) :
      Concerns place after event
  | poll {receiver : String → Option Nat} {number : Nat} {purpose : Purpose}
      {output : Aggregator} {pending : List Nat}
      (call : place.executor.calls[number]? = some ⟨purpose, .running output pending⟩)
      (turned : after = place.executor.release.finish number (.ok (some output.finish))) :
      Concerns place after (.poll receiver number)
  | launched {number : Nat} {purpose : Purpose} {outcome : Except TransportError Unit}
      (call : place.executor.calls[number]? = some ⟨purpose, .launching⟩)
      (learned : after =
        (Executor.launched place.desk place.executor number purpose outcome).2) :
      Concerns place after (.launched number outcome)
  | abandon {number : Nat} {call : Call} (found : place.executor.calls[number]? = some call)
      (inside : call.phase.isInside = true)
      (left : after = { place.executor.setPhase number .abandoned with
        lock := place.executor.lock.leave number }) :
      Concerns place after (.abandon number)

theorem isInside_eq_false {executor : Executor} {number : Nat} {call : Call}
    (found : executor.calls[number]? = some call) (ended : call.phase.isInside = false)
    (other : Call) (foundOther : executor.calls[number]? = some other) :
    other.phase.isInside = false := by
  rw [found] at foundOther
  rw [← Option.some.inj foundOther, ended]

/-- A new call is refused, at once or when it gets the lock. -/
theorem concerns_call {place : Place} (destroyed : place.executor.isDestroyed = true)
    (purpose : Purpose) :
    place.Concerns (place.step (.call purpose)).executor (.call purpose) := by
  refine .nobody ?_ fun _ _ _ => rfl
  simp only [step]
  rcases place.executor.call_eq place.desk purpose with
    ⟨outcome, -, -, called⟩ | ⟨turned, first, called⟩
  · rw [called]
    exact .withCall destroyed purpose rfl _
  · have asked : place.executor.Idles (place.executor.ask purpose) :=
      .withCall destroyed purpose rfl _
    rw [called, first]
    cases turn : Executor.turnQueued place.desk (place.executor.ask purpose)
        place.executor.calls.length purpose with
    | none => exact asked
    | some turned =>
        obtain ⟨desk, after⟩ := turned
        obtain rfl := Executor.turnQueued_of_isDestroyed asked.destroyed turn
        have last : (place.executor.ask purpose).calls[place.executor.calls.length]? =
            some ⟨purpose, .queued⟩ := by
          simp [Executor.ask, Executor.withCall]
        exact asked.trans (.leave asked.destroyed rfl (isInside_eq_false last rfl)) rfl rfl

/-- A call that has the lock is refused; one whose code runs ends. -/
theorem concerns_poll {place : Place} (destroyed : place.executor.isDestroyed = true)
    (receiver : String → Option Nat) (number : Nat) :
    place.Concerns (place.step (.poll receiver number)).executor (.poll receiver number) := by
  simp only [step]
  cases turned : place.executor.turn receiver place.desk number with
  | none => exact .nobody (.refl destroyed) fun _ _ _ => rfl
  | some turn =>
      obtain ⟨desk, after⟩ := turn
      simp only [Executor.turn] at turned
      obtain ⟨call, found, turned⟩ := Option.bind_eq_some_iff.mp turned
      split at turned
      · rename_i queued
        obtain rfl := Executor.turnQueued_of_isDestroyed destroyed turned
        have ended : call.phase.isInside = false := by rw [queued]; rfl
        exact .nobody (.leave destroyed rfl (isInside_eq_false found ended)) fun _ _ _ => rfl
      · rename_i output pending running
        obtain rfl := Executor.turnRunning_of_isDestroyed destroyed turned
        have standing : place.executor.calls[number]? =
            some ⟨call.purpose, .running output pending⟩ := by
          rw [found, ← running]
        exact .poll standing rfl
      · contradiction
      · contradiction
      · contradiction

/-- The outcome of a launch concerns the call that waits for it, if it still does. -/
theorem concerns_launched {place : Place} (destroyed : place.executor.isDestroyed = true)
    (number : Nat) (outcome : Except TransportError Unit) :
    place.Concerns (place.step (.launched number outcome)).executor
      (.launched number outcome) := by
  simp only [step]
  split
  · rename_i launching
    have phase := isInside_of_isLaunching launching
    obtain ⟨call, found, isPhase⟩ := Option.map_eq_some_iff.mp phase
    have purpose : place.executor.purpose? number = some call.purpose := by
      simp [Executor.purpose?, found]
    rw [purpose]
    refine .launched ?_ rfl
    rw [found, ← isPhase]
    rfl
  · rename_i unlaunched
    refine .nobody (.refl destroyed) ?_
    intro other purpose found
    refine decide_eq_false fun same => unlaunched ?_
    simp [Executor.isLaunching, Executor.phase?, same, found]

/-- Only the call past the lock has more to give up than its place in the queue. -/
theorem concerns_abandon {place : Place} (destroyed : place.executor.isDestroyed = true)
    (number : Nat) : place.Concerns (place.step (.abandon number)).executor (.abandon number) := by
  simp only [step, Executor.abandon]
  split
  · rename_i ended
    refine .nobody (.refl destroyed) ?_
    intro other purpose found
    refine decide_eq_false fun same => ?_
    simp [Executor.outcome?, Executor.phase?, same, found] at ended
  · cases found : place.executor.calls[number]? with
    | none =>
        refine .nobody (.leave destroyed rfl ?_) ?_
        · intro call foundCall
          rw [found] at foundCall
          contradiction
        · intro other purpose foundOther
          refine decide_eq_false fun same => ?_
          rw [same, foundOther] at found
          contradiction
    | some call =>
        cases inside : call.phase.isInside with
        | true => exact .abandon found inside rfl
        | false =>
            refine .nobody (.leave destroyed rfl (isInside_eq_false found inside)) ?_
            intro other purpose foundOther
            refine decide_eq_false fun same => ?_
            rw [same, foundOther] at found
            rw [← Option.some.inj found] at inside
            contradiction

/-- What a context does puts no message on the way to it. -/
theorem concerns_context {place : Place} (destroyed : place.executor.isDestroyed = true)
    (number : Nat) (act : Link.Act SandboxMessage) :
    place.Concerns (place.step (.context number act)).executor (.context number act) := by
  refine .nobody ⟨destroyed, rfl, Executor.sent_eq_nil ?_, fun _ _ _ => Iff.rfl⟩
    fun _ _ _ => rfl
  intro index
  simp only [step, Executor.outbox, List.getElem?_modify]
  by_cases same : number = index
  · cases place.executor.contexts[index]? with
    | none => simp
    | some context => simpa [same] using context.length_toContext_act_le act
  · simp [same]

theorem concerns_step {place : Place} (destroyed : place.executor.isDestroyed = true)
    (event : Event) : place.Concerns (place.step event).executor event := by
  cases event with
  | call purpose => exact concerns_call destroyed purpose
  | poll receiver number => exact concerns_poll destroyed receiver number
  | launched number outcome => exact concerns_launched destroyed number outcome
  | abandon number => exact concerns_abandon destroyed number
  | destroy =>
      simp only [step, Executor.destroy, destroyed, if_true]
      exact .nobody (.refl destroyed) fun _ _ _ => rfl
  | context number act => exact concerns_context destroyed number act
  | desk desk => exact .nobody (.refl destroyed) fun _ _ _ => rfl

theorem isDestroyed_destroy (place : Place) :
    (place.step .destroy).executor.isDestroyed = true := by
  simp only [step, Executor.destroy]
  split
  · assumption
  · split <;> simp [Executor.isDestroyed]

/-- An executor that was destroyed stays so. -/
theorem isDestroyed_step (place : Place) (destroyed : place.executor.isDestroyed = true)
    (event : Event) : (place.step event).executor.isDestroyed = true := by
  have concerns := concerns_step destroyed event
  generalize place.step event = next at concerns ⊢
  cases concerns with
  | nobody idles aside => exact idles.destroyed
  | poll call turned =>
      rw [turned]
      simpa [Executor.isDestroyed] using destroyed
  | @launched number purpose outcome call learned =>
      rw [learned, Executor.launched_of_isDestroyed destroyed]
      cases outcome with
      | error cause => simpa [Executor.isDestroyed] using destroyed
      | ok nothing =>
          cases purpose <;> simpa [Executor.isDestroyed, Executor.adoptWith] using destroyed
  | abandon found inside left =>
      rw [left]
      exact destroyed

end Place

/-! ## The call past the lock -/

namespace Executor

/-- A call is past the lock, and no other is. -/
structure OnlyInside (executor : Executor) (number : Nat) (call : Call) : Prop where
  found : executor.calls[number]? = some call
  inside : call.phase.isInside = true
  unique : ∀ (other : Nat) (otherCall : Call), executor.calls[other]? = some otherCall →
    otherCall.phase.isInside = true → other = number

/-- A coherent executor has at most one call past the lock. -/
theorem Coherent.atRest_or_onlyInside {executor : Executor} (coherent : executor.Coherent) :
    executor.AtRest ∨ ∃ number call, executor.OnlyInside number call := by
  by_cases rest : executor.AtRest
  · exact .inl rest
  · right
    simp only [AtRest, not_forall] at rest
    obtain ⟨number, call, found, inside⟩ := rest
    have inside : call.phase.isInside = true := by simpa using inside
    have held := coherent.holder_of_inside (phase?_of_getElem? found) inside
    refine ⟨number, call, found, inside, ?_⟩
    intro other otherCall otherFound otherInside
    have otherHeld := coherent.holder_of_inside (phase?_of_getElem? otherFound) otherInside
    rw [held] at otherHeld
    exact (Option.some.inj otherHeld).symm

/-- When the call past the lock ends, no other is. -/
theorem OnlyInside.atRest {executor after : Executor} {number : Nat} {call : Call}
    (only : executor.OnlyInside number call) (phase : Phase) (ended : phase.isInside = false)
    (calls : after.calls = (executor.setPhase number phase).calls) : after.AtRest := by
  intro other otherCall found
  rw [calls, setPhase, List.getElem?_modify] at found
  obtain ⟨old, oldFound, changed⟩ := Option.map_eq_some_iff.mp found
  by_cases same : number = other
  · rw [if_pos same] at changed
    rw [← changed]
    exact ended
  · rw [if_neg same] at changed
    obtain rfl : old = otherCall := changed
    by_contra inside
    exact same (only.unique other old oldFound (by simpa using inside)).symm

/-- The call past the lock goes on. -/
theorem OnlyInside.setPhase {executor after : Executor} {number : Nat} {call : Call}
    (only : executor.OnlyInside number call) {phase : Phase} (inside : phase.isInside = true)
    (calls : after.calls = (executor.setPhase number phase).calls) :
    after.OnlyInside number ⟨call.purpose, phase⟩ := by
  refine ⟨?_, inside, ?_⟩
  · simp [calls, Executor.setPhase, only.found]
  · intro other otherCall found otherInside
    rw [calls, Executor.setPhase, List.getElem?_modify] at found
    obtain ⟨old, oldFound, changed⟩ := Option.map_eq_some_iff.mp found
    by_cases same : number = other
    · exact same.symm
    · rw [if_neg same] at changed
      obtain rfl : old = otherCall := changed
      exact only.unique other old oldFound otherInside

/-- The call past the lock is in flight. -/
theorem OnlyInside.not_isIdle {executor : Executor} {number : Nat} {call : Call}
    (only : executor.OnlyInside number call) : ¬executor.IsIdle := by
  intro idle
  apply idle number
  exact ⟨call.phase, by simp [phase?, only.found], Phase.goesOn_of_isInside only.inside⟩

/-- The call past the lock ends and lets the context go. -/
theorem OnlyInside.release {executor : Executor} {number : Nat} {call : Call}
    (only : executor.OnlyInside number call) (destroyed : executor.isDestroyed = true)
    (outcome : Except SandboxError (Option RunResult)) :
    (executor.release.finish number outcome).isDestroyed = true ∧
      (executor.release.finish number outcome).slot = none ∧
      (executor.release.finish number outcome).AtRest ∧
      executor.sent (executor.release.finish number outcome) = [] := by
  refine ⟨?_, by simp, ?_, ?_⟩
  · simpa [isDestroyed] using destroyed
  · apply only.atRest (.finished outcome) rfl
    simp [Executor.setPhase]
  · apply sent_eq_nil
    intro index
    have same : (executor.release.finish number outcome).outbox index =
        executor.release.outbox index := outbox_congr rfl index
    exact Nat.le_of_eq (by rw [same, outbox_release])

/-- The call past the lock is given up. -/
theorem OnlyInside.abandon {executor : Executor} {number : Nat} {call : Call}
    (only : executor.OnlyInside number call) (destroyed : executor.isDestroyed = true) :
    Executor.isDestroyed { executor.setPhase number .abandoned with
      lock := executor.lock.leave number } = true ∧
      AtRest { executor.setPhase number .abandoned with
        lock := executor.lock.leave number } ∧
      executor.sent { executor.setPhase number .abandoned with
        lock := executor.lock.leave number } = [] :=
  ⟨destroyed, only.atRest .abandoned rfl rfl, sent_eq_nil fun _ => Nat.le_refl _⟩

/-- The call past the lock takes a context to keep it. -/
theorem OnlyInside.keep {executor : Executor} {number : Nat} {call : Call}
    (only : executor.OnlyInside number call) (destroyed : executor.isDestroyed = true)
    (outcome : Except SandboxError (Option RunResult)) :
    ((executor.adoptWith []).finish number outcome).isDestroyed = true ∧
      ((executor.adoptWith []).finish number outcome).slot ≠ none ∧
      ((executor.adoptWith []).finish number outcome).AtRest ∧
      executor.sent ((executor.adoptWith []).finish number outcome) = [] := by
  refine ⟨?_, by simp [adoptWith], ?_, ?_⟩
  · simpa [isDestroyed, adoptWith] using destroyed
  · apply only.atRest (.finished outcome) rfl
    simp [Executor.setPhase, adoptWith]
  · rw [sent_congr (contexts_finish (executor.adoptWith []) number outcome), sent_adoptWith]

/-- The call past the lock takes a context and submits code to it. -/
theorem OnlyInside.submit {executor : Executor} {number : Nat} {call : Call}
    (only : executor.OnlyInside number call) (destroyed : executor.isDestroyed = true)
    (messages : List HostMessage) :
    ((executor.adoptWith messages).setPhase number (.running {} [])).isDestroyed = true ∧
      ((executor.adoptWith messages).setPhase number (.running {} [])).OnlyInside number
        ⟨call.purpose, .running {} []⟩ ∧
      executor.sent ((executor.adoptWith messages).setPhase number (.running {} [])) =
        messages := by
  refine ⟨?_, ?_, ?_⟩
  · simpa [isDestroyed, adoptWith] using destroyed
  · apply only.setPhase rfl
    simp [Executor.setPhase, adoptWith]
  · rw [sent_congr (contexts_setPhase (executor.adoptWith messages) number (.running {} [])),
      sent_adoptWith]

theorem Idles.atRest {before after : Executor} (idles : before.Idles after)
    (rest : before.AtRest) : after.AtRest := by
  intro number call found
  by_contra inside
  have inside : call.phase.isInside = true := by simpa using inside
  have earlier := rest number call ((idles.inside number call inside).mp found)
  simp [inside] at earlier

theorem Idles.onlyInside {before after : Executor} (idles : before.Idles after)
    {number : Nat} {call : Call} (only : before.OnlyInside number call) :
    after.OnlyInside number call where
  found := (idles.inside number call only.inside).mpr only.found
  inside := only.inside
  unique other otherCall found inside :=
    only.unique other otherCall ((idles.inside other otherCall inside).mp found) inside

end Executor

namespace Place

/-- The messages that the events put on the links to the contexts, in order. -/
def sentDuring (place : Place) : List Event → List HostMessage
  | [] => []
  | event :: events =>
    place.executor.sent (place.step event).executor ++ (place.step event).sentDuring events

/-- How the launch that a call waits for ends, if the call is not given up before. -/
def launchOf (number : Nat) : List Event → Option (Except TransportError Unit)
  | [] => none
  | event :: events =>
    if event.settles number then event.launchOutcome? else launchOf number events

/-- An executor at rest stays as it is once it was destroyed. -/
theorem atRest_run {place : Place} (destroyed : place.executor.isDestroyed = true)
    (rest : place.executor.AtRest) (events : List Event) :
    (place.run events).executor.slot = place.executor.slot ∧ place.sentDuring events = [] := by
  induction events generalizing place with
  | nil => exact ⟨rfl, rfl⟩
  | cons event events ih =>
      have concerns := concerns_step destroyed event
      simp only [run_cons, sentDuring]
      generalize place.step event = next at concerns ⊢
      have idles : place.executor.Idles next.executor := by
        cases concerns with
        | nobody idles aside => exact idles
        | poll call turned => simpa [Phase.isInside] using rest _ _ call
        | launched call learned => simpa [Phase.isInside] using rest _ _ call
        | abandon found inside left => simp [rest _ _ found] at inside
      obtain ⟨slot, sent⟩ := ih idles.destroyed (idles.atRest rest)
      exact ⟨slot.trans idles.slot, by rw [idles.sent, sent]; rfl⟩

/-- A call whose code runs when the executor is destroyed sends nothing any more, and
unless it is given up it lets the context go. -/
theorem running_run {place : Place} (destroyed : place.executor.isDestroyed = true)
    {number : Nat} {purpose : Purpose} {output : Aggregator} {pending : List Nat}
    (only : place.executor.OnlyInside number ⟨purpose, .running output pending⟩)
    (events : List Event) :
    place.sentDuring events = [] ∧
      ((∀ other, .abandon other ∉ events) → (place.run events).executor.IsIdle →
        (place.run events).executor.slot = none) := by
  induction events generalizing place with
  | nil => exact ⟨rfl, fun _ idle => absurd idle only.not_isIdle⟩
  | cons event events ih =>
      have concerns := concerns_step destroyed event
      simp only [run_cons, sentDuring]
      generalize place.step event = next at concerns ⊢
      cases concerns with
      | nobody idles aside =>
          obtain ⟨sent, slot⟩ := ih idles.destroyed (idles.onlyInside only)
          refine ⟨by rw [idles.sent, sent]; rfl, fun stays => slot ?_⟩
          exact fun other member => stays other (List.mem_cons_of_mem event member)
      | @poll receiver ended purpose output pending call turned =>
          obtain rfl := only.unique _ _ call rfl
          obtain ⟨gone, slotGone, rest, sentNow⟩ :=
            only.release destroyed (.ok (some output.finish))
          rw [← turned] at gone slotGone rest sentNow
          obtain ⟨slot, sent⟩ := atRest_run gone rest events
          exact ⟨by rw [sentNow, sent]; rfl, fun _ _ => slot.trans slotGone⟩
      | launched call learned =>
          obtain rfl := only.unique _ _ call rfl
          have found := only.found
          rw [call] at found
          cases found
      | abandon found inside left =>
          obtain rfl := only.unique _ _ found inside
          obtain ⟨gone, rest, sentNow⟩ := only.abandon destroyed
          rw [← left] at gone rest sentNow
          obtain ⟨-, sent⟩ := atRest_run gone rest events
          refine ⟨by rw [sentNow, sent]; rfl, ?_⟩
          exact fun stays => absurd List.mem_cons_self (stays _)

/-- What a call sends as soon as it has a context. -/
def opening : Purpose → List HostMessage
  | .start => []
  | .execute code => [.executeCode (Scan.prepareForSandbox code)]

/-- Once the launch that a call waits for has an outcome, the call goes on if the launch
succeeded. -/
theorem learned_run {place next : Place} (destroyed : place.executor.isDestroyed = true)
    {number : Nat} {purpose : Purpose}
    (only : place.executor.OnlyInside number ⟨purpose, .launching⟩)
    {outcome : Except TransportError Unit}
    (learned : next.executor =
      (Executor.launched place.desk place.executor number purpose outcome).2)
    (events : List Event) :
    place.executor.sent next.executor ++ next.sentDuring events =
        (if outcome = .ok () then opening purpose else []) ∧
      ((∀ other, .abandon other ∉ events) → (next.run events).executor.IsIdle →
        ((next.run events).executor.slot = none ↔ ¬(purpose = .start ∧ outcome = .ok ()))) := by
  rw [Executor.launched_of_isDestroyed destroyed] at learned
  cases outcome with
  | error cause =>
      simp only at learned
      obtain ⟨gone, slotGone, rest, sentNow⟩ := only.release destroyed (.error (.launch cause))
      rw [← learned] at gone slotGone rest sentNow
      obtain ⟨slot, sent⟩ := atRest_run gone rest events
      refine ⟨by rw [sentNow, sent]; simp, fun _ _ => ?_⟩
      simp [slot, slotGone]
  | ok nothing =>
      cases purpose with
      | start =>
          simp only at learned
          obtain ⟨gone, kept, rest, sentNow⟩ := only.keep destroyed (.ok none)
          rw [← learned] at gone kept rest sentNow
          obtain ⟨slot, sent⟩ := atRest_run gone rest events
          refine ⟨by rw [sentNow, sent]; simp [opening], fun _ _ => ?_⟩
          simp [slot, kept]
      | execute code =>
          simp only at learned
          obtain ⟨gone, running, sentNow⟩ := only.submit destroyed
            [.executeCode (Scan.prepareForSandbox code)]
          rw [← learned] at gone running sentNow
          obtain ⟨sent, slot⟩ := running_run gone running events
          refine ⟨by rw [sentNow, sent]; simp [opening], fun stays idle => ?_⟩
          simp [slot stays idle]

/-- A call that waits for a launch when the executor is destroyed goes on if the launch
succeeds.  With code to run, it submits the code before it looks; without, it keeps
the context. -/
theorem launching_run {place : Place} (destroyed : place.executor.isDestroyed = true)
    {number : Nat} {purpose : Purpose}
    (only : place.executor.OnlyInside number ⟨purpose, .launching⟩) (events : List Event) :
    place.sentDuring events =
        (if launchOf number events = some (.ok ()) then opening purpose else []) ∧
      ((∀ other, .abandon other ∉ events) → (place.run events).executor.IsIdle →
        ((place.run events).executor.slot = none ↔
          ¬(purpose = .start ∧ launchOf number events = some (.ok ())))) := by
  -- Until an event settles the launch, none concerns the call; that event decides the rest.
  induction events generalizing place with
  | nil => exact ⟨by simp [sentDuring, launchOf], fun _ idle => absurd idle only.not_isIdle⟩
  | cons event events ih =>
      have concerns := concerns_step destroyed event
      have sooner : (∀ other, .abandon other ∉ event :: events) →
          ∀ other, .abandon other ∉ events :=
        fun stays other member => stays other (List.mem_cons_of_mem event member)
      simp only [run_cons, sentDuring]
      generalize place.step event = next at concerns ⊢
      cases concerns with
      | nobody idles aside =>
          obtain ⟨sent, slot⟩ := ih idles.destroyed (idles.onlyInside only)
          have later : launchOf number (event :: events) = launchOf number events := by
            simp [launchOf, aside number purpose only.found]
          rw [later]
          exact ⟨by rw [idles.sent, sent]; rfl, fun stays => slot (sooner stays)⟩
      | poll call turned =>
          obtain rfl := only.unique _ _ call rfl
          have found := only.found
          rw [call] at found
          cases found
      | @launched launched purpose' outcome call learned =>
          obtain rfl := only.unique _ _ call rfl
          obtain rfl : purpose' = purpose := by
            have found := only.found
            rw [call] at found
            cases found
            rfl
          have now : launchOf launched (.launched launched outcome :: events) = some outcome := by
            simp [launchOf, Event.settles, Event.launchOutcome?]
          obtain ⟨sent, slot⟩ := learned_run destroyed only learned events
          simp only [now, Option.some.injEq]
          exact ⟨sent, fun stays => slot (sooner stays)⟩
      | abandon found inside left =>
          obtain rfl := only.unique _ _ found inside
          obtain ⟨gone, rest, sentNow⟩ := only.abandon destroyed
          rw [← left] at gone rest sentNow
          obtain ⟨-, sent⟩ := atRest_run gone rest events
          refine ⟨?_, fun stays => absurd List.mem_cons_self (stays _)⟩
          rw [sentNow, sent]
          simp [launchOf, Event.settles, Event.launchOutcome?]

end Place

end Polyglot.Sandbox
