import Polyglot.Proofs.Sandbox.Destruction

/-!
# Calls that a destroyed executor refuses

A call that is made after the executor was destroyed waits in line for the lock, and is
told that the executor was destroyed as soon as it holds it.  Whatever happens meanwhile,
it stands in line, has been told, or its caller has gone away.
-/

namespace Polyglot.Sandbox

/-- How a call stands that is being refused. -/
inductive Phase.IsRefused : Phase → Prop where
  | queued : IsRefused .queued
  | told : IsRefused (.finished (.error .destroyed))
  | abandoned : IsRefused .abandoned

namespace Executor

/-- An executor after something that happened to it, whatever lay at its desk. -/
inductive Moves (executor : Executor) : Executor → Prop where
  | stays : executor.Moves executor
  | event (desk : Desk) (event : Event) :
      executor.Moves (Place.step ⟨desk, executor⟩ event).executor
  | release : executor.Moves executor.release

/-- A destroyed executor refuses a call. -/
structure Refuses (executor : Executor) (number : Nat) : Prop where
  destroyed : executor.isDestroyed = true
  ordered : executor.lock.Ordered
  phase : ∃ phase, executor.phase? number = some phase ∧ phase.IsRefused
  waits : executor.phase? number = some .queued → number ∈ executor.lock.line

section Changes

variable {before after : Executor} {number other : Nat}

/-- Whether a call is refused is read off the stage, the lock and the calls. -/
theorem Refuses.congr (refuses : before.Refuses number)
    (lifecycle : after.lifecycle = before.lifecycle) (lock : after.lock = before.lock)
    (calls : after.calls = before.calls) : after.Refuses number := by
  refine ⟨?_, ?_, ?_, ?_⟩
  · rw [isDestroyed_congr lifecycle, refuses.destroyed]
  · rw [lock]
    exact refuses.ordered
  · rw [phase?_congr calls]
    exact refuses.phase
  · rw [phase?_congr calls, lock]
    exact refuses.waits

/-- Another call is made and asks for the lock. -/
theorem Refuses.ask (refuses : before.Refuses number) (purpose : Purpose) :
    (before.ask purpose).Refuses number := by
  obtain ⟨phase, found, isRefused⟩ := refuses.phase
  have old : number ≠ before.calls.length := by
    rintro rfl
    simp [phase?] at found
  have same : (before.ask purpose).phase? number = before.phase? number := by
    rw [phase?_ask, if_neg old]
  refine ⟨refuses.destroyed, before.lock.ordered_enter _, ⟨phase, same.trans found, isRefused⟩, ?_⟩
  intro queued
  rw [same] at queued
  have line : (before.ask purpose).lock.line = before.lock.line ++ [before.calls.length] :=
    Lock.line_enter refuses.ordered _
  rw [line]
  exact List.mem_append_left _ (refuses.waits queued)

theorem Refuses.withCall (refuses : before.Refuses number) (purpose : Purpose)
    (outcome : Except SandboxError (Option RunResult)) :
    (before.withCall purpose (.finished outcome)).Refuses number := by
  obtain ⟨phase, found, isRefused⟩ := refuses.phase
  have old : number ≠ before.calls.length := by
    rintro rfl
    simp [phase?] at found
  have same : (before.withCall purpose (.finished outcome)).phase? number =
      before.phase? number := by
    rw [phase?_withCall, if_neg old]
  refine ⟨refuses.destroyed, refuses.ordered, ⟨phase, same.trans found, isRefused⟩, ?_⟩
  rw [same]
  exact refuses.waits

/-- A call comes to its end and leaves the lock; if it is the one that is refused, it was
told so, or its caller has gone away. -/
theorem Refuses.leave (refuses : before.Refuses number) {phase : Phase}
    (ended : phase.goesOn = false) (told : other = number → phase.IsRefused) :
    Refuses { before.setPhase other phase with lock := before.lock.leave other } number := by
  have phases : Executor.phase? { before.setPhase other phase with
      lock := before.lock.leave other } number =
        if number = other then (before.phase? number).map fun _ => phase
        else before.phase? number := phase?_setPhase before other number phase
  refine ⟨refuses.destroyed, refuses.ordered.leave other, ?_, ?_⟩
  · obtain ⟨old, found, isRefused⟩ := refuses.phase
    rw [phases]
    by_cases same : number = other
    · exact ⟨phase, by rw [if_pos same, found, Option.map_some], told same.symm⟩
    · exact ⟨old, by rw [if_neg same, found], isRefused⟩
  · rw [phases]
    intro queued
    by_cases same : number = other
    · obtain ⟨old, found, -⟩ := refuses.phase
      rw [if_pos same, found, Option.map_some] at queued
      cases queued
      contradiction
    · rw [if_neg same] at queued
      have line : (before.lock.leave other).line = before.lock.line.erase other :=
        Lock.line_leave other
      rw [line, List.mem_erase_of_ne same]
      exact refuses.waits queued

theorem Refuses.finish (refuses : before.Refuses number)
    {outcome : Except SandboxError (Option RunResult)}
    (told : other = number → outcome = .error .destroyed) :
    (before.finish other outcome).Refuses number :=
  refuses.leave rfl fun same => told same ▸ .told

theorem Refuses.release (refuses : before.Refuses number) : before.release.Refuses number :=
  refuses.congr (lifecycle_release before) (lock_release before) (calls_release before)

/-- Another call goes on. -/
theorem Refuses.setPhase (refuses : before.Refuses number) (different : other ≠ number)
    (phase : Phase) : (before.setPhase other phase).Refuses number := by
  have same : (before.setPhase other phase).phase? number = before.phase? number := by
    rw [phase?_setPhase, if_neg fun equal => different equal.symm]
  refine ⟨refuses.destroyed, refuses.ordered, ?_, ?_⟩
  · rw [same]
    exact refuses.phase
  · rw [same]
    exact refuses.waits

/-- A call that is past the lock is not one that is refused. -/
theorem Refuses.ne_of_isInside (refuses : before.Refuses number) {phase : Phase}
    (found : before.phase? other = some phase) (inside : phase.isInside = true) :
    other ≠ number := by
  rintro rfl
  obtain ⟨same, foundSame, isRefused⟩ := refuses.phase
  rw [found] at foundSame
  cases foundSame
  cases isRefused <;> contradiction

end Changes

/-! ## Whatever happens -/

section Events

variable {executor after : Executor} {number : Nat}

/-- A call of a destroyed executor is refused. -/
theorem refuses_call (destroyed : executor.isDestroyed = true) (desk : Desk) (code : String) :
    (executor.call desk (.execute code)).2.1.Refuses executor.calls.length := by
  have last : (executor.ask (.execute code)).phase? executor.calls.length = some .queued := by
    rw [phase?_ask, if_pos rfl]
  have asked : (executor.ask (.execute code)).Refuses executor.calls.length := by
    refine ⟨destroyed, executor.lock.ordered_enter _, ⟨.queued, last, .queued⟩, fun _ => ?_⟩
    simp only [Executor.ask, Lock.enter, Lock.line]
    split <;> simp
  rcases executor.call_eq desk (.execute code) with
    ⟨outcome, isStart, -⟩ | ⟨turned, first, called⟩
  · contradiction
  · rw [called, first]
    cases turn : turnQueued desk (executor.ask (.execute code)) executor.calls.length
        (.execute code) with
    | none => exact asked
    | some next =>
        rw [Option.getD_some, turnQueued_of_isDestroyed asked.destroyed turn]
        exact asked.finish fun _ => rfl

/-- A call of another executes nothing, so the refused one stays refused. -/
theorem Refuses.call (refuses : executor.Refuses number) (desk : Desk) (purpose : Purpose) :
    (executor.call desk purpose).2.1.Refuses number := by
  rcases executor.call_eq desk purpose with ⟨outcome, -, -, called⟩ | ⟨turned, first, called⟩
  · rw [called]
    exact refuses.withCall purpose outcome
  · have asked := refuses.ask purpose
    rw [called, first]
    cases turn : turnQueued desk (executor.ask purpose) executor.calls.length purpose with
    | none => exact asked
    | some next =>
        rw [Option.getD_some, turnQueued_of_isDestroyed asked.destroyed turn]
        exact asked.finish fun _ => rfl

/-- A call takes a turn: it is told that the executor was destroyed, or its code ran and
it ends. -/
theorem Refuses.turn (refuses : executor.Refuses number) {receiver : String → Option Nat}
    {desk desk' : Desk} {other : Nat}
    (turned : executor.turn receiver desk other = some (desk', after)) :
    after.Refuses number := by
  simp only [Executor.turn] at turned
  obtain ⟨call, found, turned⟩ := Option.bind_eq_some_iff.mp turned
  split at turned
  · rw [turnQueued_of_isDestroyed refuses.destroyed turned]
    exact refuses.finish fun _ => rfl
  · rename_i output pending running
    have inside : executor.phase? other = some (.running output pending) := by
      rw [phase?_of_getElem? found, running]
    rw [turnRunning_of_isDestroyed refuses.destroyed turned]
    exact refuses.release.finish fun same => absurd same (refuses.ne_of_isInside inside rfl)
  all_goals contradiction

/-- A call learns what became of its launch. -/
theorem Refuses.launched (refuses : executor.Refuses number) {other : Nat}
    (launching : executor.isLaunching other = true) (desk : Desk) (purpose : Purpose)
    (outcome : Except TransportError Unit) :
    (Executor.launched desk executor other purpose outcome).2.Refuses number := by
  have different : other ≠ number :=
    refuses.ne_of_isInside (Place.isInside_of_isLaunching launching) rfl
  have adopted (messages : List HostMessage) : (executor.adoptWith messages).Refuses number :=
    refuses.congr (by simp [adoptWith]) (by simp [adoptWith]) (by simp [adoptWith])
  rw [launched_of_isDestroyed refuses.destroyed]
  cases outcome with
  | error cause => exact refuses.release.finish fun same => absurd same different
  | ok nothing =>
      cases purpose with
      | start => exact (adopted []).finish fun same => absurd same different
      | execute code =>
          exact (adopted [.executeCode (Scan.prepareForSandbox code)]).setPhase different _

/-- Whatever happens to a destroyed executor, a call that it refuses stays refused. -/
theorem Refuses.moves (refuses : executor.Refuses number) (moves : executor.Moves after) :
    after.Refuses number := by
  cases moves with
  | stays => exact refuses
  | release => exact refuses.release
  | event desk event =>
      cases event with
      | call purpose => exact refuses.call desk purpose
      | poll receiver other =>
          simp only [Place.step]
          cases turned : executor.turn receiver desk other with
          | none => exact refuses
          | some next => exact refuses.turn turned
      | launched other outcome =>
          simp only [Place.step]
          split
          · rename_i launching
            exact refuses.launched launching desk _ outcome
          · exact refuses
      | abandon other =>
          simp only [Place.step, Executor.abandon]
          split
          · exact refuses
          · exact refuses.leave rfl fun _ => .abandoned
      | destroy =>
          simp only [Place.step, Executor.destroy, refuses.destroyed, if_true]
          exact refuses
      | context other act => exact refuses.congr rfl rfl rfl
      | desk desk => exact refuses

end Events

/-! ## What comes of a refused call -/

section Outcomes

variable {executor after : Executor} {number : Nat} {desk desk' : Desk}
  {receiver : String → Option Nat}

/-- A refused call has no outcome but that the executor was destroyed. -/
theorem Refuses.outcome (refuses : executor.Refuses number)
    {outcome : Except SandboxError (Option RunResult)}
    (ended : executor.outcome? number = some outcome) : outcome = .error .destroyed := by
  obtain ⟨phase, found, isRefused⟩ := refuses.phase
  simp only [Executor.outcome?, found] at ended
  cases isRefused <;> cases ended
  rfl

/-- The first turn of a refused call that comes to anything tells it that the executor was
destroyed, and does nothing else. -/
theorem Refuses.turned (refuses : executor.Refuses number)
    (turned : executor.turn receiver desk number = some (desk', after)) :
    desk' = desk ∧ after = executor.finish number (.error .destroyed) ∧
      executor.phase? number = some .queued := by
  obtain ⟨phase, foundPhase, isRefused⟩ := refuses.phase
  simp only [Executor.turn] at turned
  obtain ⟨call, found, turned⟩ := Option.bind_eq_some_iff.mp turned
  obtain rfl : call.phase = phase := by simpa [phase?, found] using foundPhase
  split at turned
  · rename_i queued
    refine ⟨?_, turnQueued_of_isDestroyed refuses.destroyed turned, queued ▸ foundPhase⟩
    simp only [turnQueued, refuses.destroyed, if_true] at turned
    split at turned
    · contradiction
    · cases turned
      rfl
  · rename_i running
    rw [running] at isRefused
    contradiction
  all_goals contradiction

/-- A refused call that has no outcome can take its turn, stands in line behind the call
that holds the lock, or nobody waits for it any more. -/
theorem Refuses.stands (refuses : executor.Refuses number)
    (unended : executor.outcome? number = none) :
    executor.phase? number = some .abandoned ∨
      (∃ other, executor.lock.holder = some other ∧ other ≠ number) ∨
      ∀ (receiver : String → Option Nat) (desk : Desk),
        (executor.turn receiver desk number).isSome = true := by
  obtain ⟨phase, found, isRefused⟩ := refuses.phase
  cases isRefused with
  | told => simp [Executor.outcome?, found] at unended
  | abandoned => exact .inl found
  | queued =>
      have inLine := refuses.waits found
      cases held : executor.lock.holder with
      | none => simp [Lock.line, held, refuses.ordered held] at inLine
      | some other =>
          by_cases same : other = number
          · refine .inr (.inr fun receiver desk => ?_)
            obtain ⟨call, foundCall, isQueued⟩ := Option.map_eq_some_iff.mp found
            simp [Executor.turn, foundCall, isQueued, turnQueued, held, same, refuses.destroyed]
          · exact .inr (.inl ⟨other, rfl, same⟩)

end Outcomes

/-! ## What a refused call leaves alone -/

/-- No context was sent anything, and no call has come to wait for one. -/
structure LeavesAlone (before after : Executor) : Prop where
  contexts : after.contexts = before.contexts
  isLaunching : ∀ number, after.isLaunching number = before.isLaunching number

section Aside

variable {executor after : Executor} {number : Nat} {desk desk' : Desk}
  {receiver : String → Option Nat}

theorem isLaunching_of_phase? {before after : Executor}
    (same : after.phase? number = before.phase? number) :
    after.isLaunching number = before.isLaunching number := by
  simp only [isLaunching, same]

/-- A call that was told that the executor is destroyed waits for no launch, and it did not
before. -/
theorem leavesAlone_finish (queued : executor.phase? number = some .queued)
    (outcome : Except SandboxError (Option RunResult)) :
    executor.LeavesAlone (executor.finish number outcome) := by
  refine ⟨rfl, fun other => ?_⟩
  have phases : (executor.finish number outcome).phase? other =
      (executor.setPhase number (.finished outcome)).phase? other := rfl
  by_cases same : other = number
  · subst same
    simp only [isLaunching, phases, phase?_setPhase, if_true, queued, Option.map_some]
  · exact isLaunching_of_phase? (by rw [phases, phase?_setPhase, if_neg same])

theorem leavesAlone_ask (executor : Executor) (purpose : Purpose) :
    executor.LeavesAlone (executor.ask purpose) := by
  refine ⟨rfl, fun other => ?_⟩
  by_cases last : other = executor.calls.length
  · subst last
    have new : executor.phase? executor.calls.length = none := by simp [phase?]
    simp only [isLaunching, phase?_ask, if_true, new]
  · exact isLaunching_of_phase? (by rw [phase?_ask, if_neg last])

/-- A destroyed executor that is given code leaves everything alone. -/
theorem leavesAlone_call (destroyed : executor.isDestroyed = true) (desk : Desk) (code : String) :
    executor.LeavesAlone (executor.call desk (.execute code)).2.1 := by
  have asked := executor.leavesAlone_ask (.execute code)
  have last : (executor.ask (.execute code)).phase? executor.calls.length = some .queued := by
    rw [phase?_ask, if_pos rfl]
  rcases executor.call_eq desk (.execute code) with
    ⟨outcome, isStart, -⟩ | ⟨turned, first, called⟩
  · contradiction
  · rw [called, first]
    cases turn : turnQueued desk (executor.ask (.execute code)) executor.calls.length
        (.execute code) with
    | none => exact asked
    | some next =>
        have stays : (executor.ask (.execute code)).isDestroyed = true := destroyed
        rw [Option.getD_some, turnQueued_of_isDestroyed stays turn]
        have finished := leavesAlone_finish last (.error .destroyed)
        exact ⟨finished.contexts.trans asked.contexts,
          fun other => (finished.isLaunching other).trans (asked.isLaunching other)⟩

/-- So does a turn of a call that is refused. -/
theorem Refuses.leavesAlone (refuses : executor.Refuses number)
    (turned : executor.turn receiver desk number = some (desk', after)) :
    executor.LeavesAlone after := by
  obtain ⟨-, told, queued⟩ := refuses.turned turned
  rw [told]
  exact leavesAlone_finish queued _

end Aside

end Executor

end Polyglot.Sandbox
