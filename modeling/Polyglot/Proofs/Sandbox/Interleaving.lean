import Polyglot.Proofs.Channel.Context
import Polyglot.Proofs.Channel.Lock
import Polyglot.Sandbox.Executor

/-!
# Interleavings of a sandbox executor

Callers, launches, contexts and whoever answers input act on one executor in any
order.  A caller acts in turns, so every order of whole polls is among the orders
considered here, and a launch that a call waits for ends when the call learns of
it.

Whatever the order, the executor stays coherent: the calls that are not over are
those in line for the lock, only the holder of the lock is past it, and no context
but the one in the slot is still held.
-/

namespace Polyglot.Sandbox

/-- An executor with the desk of its broker. -/
structure Place where
  desk : Desk
  executor : Executor

/-- Something that happens to an executor. -/
inductive Event where
  /-- Somebody calls a clone of it. -/
  | call (purpose : Purpose)
  /-- A call takes a turn. -/
  | poll (receiver : String → Option Nat) (number : Nat)
  /-- The launch that a call waits for has an outcome. -/
  | launched (number : Nat) (outcome : Except TransportError Unit)
  /-- The caller of a call goes away. -/
  | abandon (number : Nat)
  | destroy
  /-- A context does something at its end of the link. -/
  | context (number : Nat) (act : Link.Act SandboxMessage)
  /-- Something happens at the desk: input is provided, or a callback registered. -/
  | desk (desk : Desk)

namespace Executor

/-- The purpose of a call. -/
def purpose? (executor : Executor) (number : Nat) : Option Purpose :=
  executor.calls[number]?.map (·.purpose)

end Executor

namespace Place

/-- A place of an executor that nobody has called yet. -/
def fresh (desk : Desk) (language : String) (broker : Nat) : Place :=
  ⟨desk, { language, broker }⟩

/-- The place after an event. -/
def step (place : Place) : Event → Place
  | .call purpose =>
    let (desk, executor, _) := place.executor.call place.desk purpose
    ⟨desk, executor⟩
  | .poll receiver number =>
    match place.executor.turn receiver place.desk number with
    | none => place
    | some (desk, executor) => ⟨desk, executor⟩
  | .launched number outcome =>
    if place.executor.isLaunching number then
      let purpose := (place.executor.purpose? number).getD .start
      let (desk, executor) := place.executor.launched place.desk number purpose outcome
      ⟨desk, executor⟩
    else place
  | .abandon number =>
    let (desk, executor) := place.executor.abandon place.desk number
    ⟨desk, executor⟩
  | .destroy =>
    let (desk, executor) := place.executor.destroy place.desk
    ⟨desk, executor⟩
  | .context number act =>
    { place with
      executor := { place.executor with
        contexts := place.executor.contexts.modify number (·.act act) } }
  | .desk desk => { place with desk }

/-- The place after several events. -/
def run (place : Place) (events : List Event) : Place := events.foldl step place

@[simp] theorem run_nil (place : Place) : place.run [] = place := rfl

@[simp] theorem run_cons (place : Place) (event : Event) (events : List Event) :
    place.run (event :: events) = (place.step event).run events := rfl

theorem run_append (place : Place) (first second : List Event) :
    place.run (first ++ second) = (place.run first).run second :=
  List.foldl_append

end Place

/-! ## Calls that are not over -/

/-- Whether a call that stands there is not over. -/
def Phase.goesOn : Phase → Bool
  | .queued | .launching | .running _ _ => true
  | .finished _ | .abandoned => false

/-- Whether a call that stands there is past the lock. -/
def Phase.isInside : Phase → Bool
  | .launching | .running _ _ => true
  | .queued | .finished _ | .abandoned => false

theorem Phase.goesOn_of_isInside {phase : Phase} (inside : phase.isInside = true) :
    phase.goesOn = true := by
  cases phase <;> simp_all [isInside, goesOn]

namespace Executor

/-- A call is not over. -/
def GoesOn (executor : Executor) (number : Nat) : Prop :=
  ∃ phase, executor.phase? number = some phase ∧ phase.goesOn = true

/-- A call is past the lock. -/
def IsInside (executor : Executor) (number : Nat) : Prop :=
  ∃ phase, executor.phase? number = some phase ∧ phase.isInside = true

/-- No call is in flight. -/
def IsIdle (executor : Executor) : Prop := ∀ number, ¬executor.GoesOn number

/-- What holds of an executor whatever happened to it. -/
structure Coherent (executor : Executor) : Prop where
  admits : executor.lock.Admits executor.GoesOn executor.IsInside
  slot_lt : ∀ number, executor.slot = some number → number < executor.contexts.length
  slot_of_open : ∀ number context, executor.contexts[number]? = some context →
    context.hostOpen = true → executor.slot = some number

/-! ## What the operations leave alone -/

section Frames

variable (executor : Executor) (number : Nat) (phase : Phase) (stage : Lifecycle)
  (context : Context) (outcome : Except SandboxError (Option RunResult))

@[simp] theorem lock_setPhase : (executor.setPhase number phase).lock = executor.lock := rfl
@[simp] theorem slot_setPhase : (executor.setPhase number phase).slot = executor.slot := rfl
@[simp] theorem contexts_setPhase :
    (executor.setPhase number phase).contexts = executor.contexts := rfl
@[simp] theorem lifecycle_setPhase :
    (executor.setPhase number phase).lifecycle = executor.lifecycle := rfl

@[simp] theorem lock_finish :
    (executor.finish number outcome).lock = executor.lock.leave number := rfl
@[simp] theorem slot_finish : (executor.finish number outcome).slot = executor.slot := rfl
@[simp] theorem contexts_finish :
    (executor.finish number outcome).contexts = executor.contexts := rfl
@[simp] theorem lifecycle_finish :
    (executor.finish number outcome).lifecycle = executor.lifecycle := rfl
@[simp] theorem calls_finish :
    (executor.finish number outcome).calls =
      (executor.setPhase number (.finished outcome)).calls := rfl

@[simp] theorem lock_transition : (executor.transition stage).lock = executor.lock := by
  unfold transition; split <;> rfl
@[simp] theorem slot_transition : (executor.transition stage).slot = executor.slot := by
  unfold transition; split <;> rfl
@[simp] theorem contexts_transition :
    (executor.transition stage).contexts = executor.contexts := by
  unfold transition; split <;> rfl
@[simp] theorem calls_transition : (executor.transition stage).calls = executor.calls := by
  unfold transition; split <;> rfl

@[simp] theorem lock_setContext : (executor.setContext context).lock = executor.lock := by
  unfold setContext; split <;> rfl
@[simp] theorem slot_setContext : (executor.setContext context).slot = executor.slot := by
  unfold setContext; split <;> rfl
@[simp] theorem calls_setContext : (executor.setContext context).calls = executor.calls := by
  unfold setContext; split <;> rfl
@[simp] theorem lifecycle_setContext :
    (executor.setContext context).lifecycle = executor.lifecycle := by
  unfold setContext; split <;> rfl

@[simp] theorem lock_release : executor.release.lock = executor.lock := by
  unfold release; split <;> rfl
@[simp] theorem slot_release : executor.release.slot = none := by
  unfold release; split <;> simp_all
@[simp] theorem calls_release : executor.release.calls = executor.calls := by
  unfold release; split <;> rfl
@[simp] theorem lifecycle_release : executor.release.lifecycle = executor.lifecycle := by
  unfold release; split <;> rfl
@[simp] theorem length_contexts_release :
    executor.release.contexts.length = executor.contexts.length := by
  unfold release; split <;> simp

@[simp] theorem lock_adopt : executor.adopt.lock = executor.lock := by simp [adopt]
@[simp] theorem slot_adopt : executor.adopt.slot = some executor.contexts.length := by
  simp [adopt]
@[simp] theorem calls_adopt : executor.adopt.calls = executor.calls := by simp [adopt]
@[simp] theorem lifecycle_adopt : executor.adopt.lifecycle = executor.lifecycle := by
  simp [adopt]

end Frames

/-! ## Phases -/

theorem phase?_of_getElem? {executor : Executor} {number : Nat} {call : Call}
    (found : executor.calls[number]? = some call) : executor.phase? number = some call.phase := by
  simp [phase?, found]

theorem phase?_congr {before after : Executor} (same : after.calls = before.calls)
    (number : Nat) : after.phase? number = before.phase? number := by
  simp [phase?, same]

theorem goesOn_congr {before after : Executor} (same : after.calls = before.calls) :
    after.GoesOn = before.GoesOn := by
  funext number
  simp only [GoesOn, phase?_congr same]

theorem isInside_congr {before after : Executor} (same : after.calls = before.calls) :
    after.IsInside = before.IsInside := by
  funext number
  simp only [IsInside, phase?_congr same]

theorem phase?_setPhase (executor : Executor) (number other : Nat) (phase : Phase) :
    (executor.setPhase number phase).phase? other =
      if other = number then (executor.phase? other).map fun _ => phase
      else executor.phase? other := by
  by_cases same : other = number
  · subst other
    simp [phase?, setPhase, Function.comp_def]
  · have different : ¬number = other := fun equal => same equal.symm
    simp [phase?, setPhase, same, different]

/-! ## New calls -/

/-- An executor with one call more. -/
def withCall (executor : Executor) (purpose : Purpose) (phase : Phase) : Executor :=
  { executor with calls := executor.calls ++ [⟨purpose, phase⟩] }

/-- An executor with one call more, which asks for the lock. -/
def ask (executor : Executor) (purpose : Purpose) : Executor :=
  { executor.withCall purpose .queued with lock := executor.lock.enter executor.calls.length }

theorem phase?_withCall (executor : Executor) (purpose : Purpose) (phase : Phase)
    (number : Nat) :
    (executor.withCall purpose phase).phase? number =
      if number = executor.calls.length then some phase else executor.phase? number := by
  by_cases last : number = executor.calls.length
  · simp [phase?, withCall, last]
  · rw [if_neg last]
    by_cases below : number < executor.calls.length
    · simp [phase?, withCall, List.getElem?_append_left below]
    · have beyond : (executor.calls ++ [(⟨purpose, phase⟩ : Call)]).length ≤ number := by
        simp only [List.length_append, List.length_singleton]
        omega
      simp [phase?, withCall, List.getElem?_eq_none beyond,
        List.getElem?_eq_none (Nat.le_of_not_lt below)]

theorem phase?_ask (executor : Executor) (purpose : Purpose) (number : Nat) :
    (executor.ask purpose).phase? number =
      if number = executor.calls.length then some .queued else executor.phase? number :=
  executor.phase?_withCall purpose .queued number

/-- A new call is over at once, which only a call to have a context can be, or it
asks for the lock and takes its first turn. -/
theorem call_eq (desk : Desk) (executor : Executor) (purpose : Purpose) :
    (∃ outcome, purpose = .start ∧ (outcome = .ok none ∨ outcome = .error .destroyed) ∧
      executor.call desk purpose =
        (desk, executor.withCall purpose (.finished outcome), executor.calls.length)) ∨
    ∃ turned, turned = (turnQueued desk (executor.ask purpose) executor.calls.length purpose).getD
        (desk, executor.ask purpose) ∧
      executor.call desk purpose = (turned.1, turned.2, executor.calls.length) := by
  cases purpose with
  | execute code => exact .inr ⟨_, rfl, rfl⟩
  | start =>
      obtain ⟨language, broker, lifecycle, lock, contexts, slot, calls⟩ := executor
      cases lifecycle with
      | unstarted => exact .inr ⟨_, rfl, rfl⟩
      | initializing => exact .inr ⟨_, rfl, rfl⟩
      | ready => exact .inl ⟨_, rfl, .inl rfl, rfl⟩
      | executing => exact .inl ⟨_, rfl, .inl rfl, rfl⟩
      | destroyed => exact .inl ⟨_, rfl, .inr rfl, rfl⟩

end Executor

end Polyglot.Sandbox
