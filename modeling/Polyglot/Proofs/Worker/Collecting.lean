import Polyglot.Proofs.Run.Trimming
import Polyglot.Proofs.Worker.Dealing
import Polyglot.Proofs.Worker.Dismissal

/-!
# Results of worker executors

Whatever a run on a worker returns was collected from its output, and a call returns what its run
does.  So a call returns what was collected as long as every run of the registry does.
-/

namespace Polyglot.Worker

/-! ## Runs -/

/-- The result of a run that stands there. -/
def Phase.result? : Phase → Option RunResult
  | .finished result => some result
  | .queued | .running _ _ | .abandoned => none

namespace Handle

/-- What the runs on a worker return was collected. -/
def Collects (handle : Handle) : Prop :=
  ∀ number, RunResult.AllCollected (handle.result? number)

variable {handle ready after : Handle} {number broker : Nat} {desk desk' : Desk} {phase : Phase}
  {asked : Run} {receiver : String → Option Nat} {cancelled : Bool} {output : Aggregator}
  {pending : List Nat}

theorem result?_eq (handle : Handle) (number : Nat) :
    handle.result? number = (handle.phase? number).bind Phase.result? := by
  simp only [result?]
  cases handle.phase? number with
  | none => rfl
  | some phase => cases phase <;> rfl

theorem Collects.congr (collects : handle.Collects) (runs : after.runs = handle.runs) :
    after.Collects := by
  intro number
  rw [result?, phase?, runs]
  exact collects number

/-- One run gets somewhere; if that is its end, its result was collected. -/
theorem Collects.setPhase (collects : handle.Collects) (number : Nat)
    (collected : RunResult.AllCollected phase.result?) :
    (handle.setPhase number phase).Collects := by
  intro other
  rw [result?_eq, phase?, getElem?_setPhase]
  split
  · cases handle.runs[other]? with
    | none => exact RunResult.allCollected_none
    | some run => exact collected
  · have same := collects other
    rwa [result?_eq, phase?] at same

/-- One run gets somewhere, but not to a result. -/
theorem Collects.goOn (collects : handle.Collects) (number : Nat)
    (unended : phase.result? = none) : (handle.setPhase number phase).Collects :=
  collects.setPhase number (unended ▸ RunResult.allCollected_none)

theorem Collects.finish (collects : handle.Collects) (number : Nat) (output : Aggregator) :
    (handle.finish number output).Collects := by
  have finished : (handle.setPhase number (.finished output.finish)).Collects :=
    collects.setPhase number (RunResult.allCollected_finish output)
  exact finished.congr rfl

theorem Collects.crash (collects : handle.Collects) (desk : Desk) (number broker : Nat)
    (output : Aggregator) (reason : String) :
    (crash desk handle number broker output reason).2.Collects :=
  have dead : handle.markDead.Collects := collects.congr rfl
  dead.finish number _

theorem Collects.request? (collects : handle.Collects) {request : Request}
    (sent : handle.request? request = some after) : after.Collects :=
  collects.congr (alike_request? sent).runs

theorem Collects.turnQueued (collects : handle.Collects)
    (turned : turnQueued desk handle number asked = some (desk', after)) : after.Collects := by
  have drained : Collects { handle with line := handle.line.drain } := collects.congr rfl
  simp only [Handle.turnQueued] at turned
  split at turned
  · contradiction
  · split at turned
    · rename_i submitted sent
      cases turned
      split at sent
      · exact (drained.request? sent).goOn number rfl
      · contradiction
    · cases turned
      have dead : (markDead { handle with line := handle.line.drain }).Collects :=
        collects.congr rfl
      exact dead.finish number _

theorem Collects.run (collects : handle.Collects) (desk : Desk) (broker : Nat) (code : String) :
    (handle.run desk broker code).2.1.Collects := by
  have asked : (handle.ask broker code).Collects := by
    intro number result returned
    rw [result?_eq] at returned
    obtain ⟨phase, isPhase, isResult⟩ := Option.bind_eq_some_iff.mp returned
    obtain ⟨run, found, rfl⟩ := Option.map_eq_some_iff.mp isPhase
    rcases Registry.getElem?_concat found with wasThere | rfl
    · exact collects number result (by rw [result?_eq, phase?, wasThere]; exact isResult)
    · contradiction
  change ((Handle.turnQueued desk (handle.ask broker code) handle.runs.length
    { code, broker }).getD (desk, handle.ask broker code)).2.Collects
  cases turned : Handle.turnQueued desk (handle.ask broker code) handle.runs.length
      { code, broker } with
  | none => exact asked
  | some next => exact asked.turnQueued turned

theorem Collects.receive (collects : handle.Collects) (receiver : String → Option Nat) (desk : Desk)
    (number broker : Nat) (output : Aggregator) (pending : List Nat) (event : Event) :
    (receive receiver desk handle number broker output pending event).2.Collects := by
  cases event with
  | fault reason => exact collects.crash desk number broker output reason
  | message content =>
      cases content with
      | stdout data => exact collects.goOn number rfl
      | stderr data => exact collects.goOn number rfl
      | inputRequest prompt => exact collects.goOn number rfl
      | done => exact collects.finish number output
      | error data => exact collects.finish number _
      | ready => exact collects

theorem Collects.answer (collects : handle.Collects)
    (answered : answer desk handle number broker output pending = some (desk', after)) :
    after.Collects := by
  cases pending with
  | nil => contradiction
  | cons ticket rest =>
      obtain ⟨value, -, answered⟩ := Option.bind_eq_some_iff.mp answered
      split at answered
      · cases answered
        exact collects.crash (desk.modify broker (·.take ticket)) number broker output _
      · rename_i next sent
        cases answered
        exact (collects.request? sent).goOn number rfl

theorem Collects.turn (collects : handle.Collects)
    (turned : handle.turn receiver cancelled desk number = some (desk', after)) :
    after.Collects := by
  simp only [Handle.turn] at turned
  obtain ⟨run, -, turned⟩ := Option.bind_eq_some_iff.mp turned
  split at turned
  · exact collects.turnQueued turned
  · simp only [turnRunning] at turned
    split at turned
    · cases turned
      exact (collects.congr handle.alike_terminate.runs).finish number _
    · split at turned
      · rename_i event line _
        have taken : Collects { handle with line } := collects.congr rfl
        rw [← show _ = after from congrArg Prod.snd (Option.some.inj turned)]
        exact taken.receive receiver desk number run.broker _ _ event
      · cases turned
        exact collects.crash desk number run.broker _ _
      · exact collects.answer turned
  · contradiction
  · contradiction

theorem Collects.abandon (collects : handle.Collects) (desk : Desk) (number : Nat) :
    (handle.abandon desk number).2.Collects := by
  have left : (handle.setPhase number .abandoned).Collects := collects.goOn number rfl
  simp only [Handle.abandon]
  split
  · exact collects
  · split
    · exact left.congr rfl
    · exact left.congr rfl
    · exact collects
    · exact collects

theorem Collects.launched (collects : handle.Collects) (outcome : Except TransportError Unit) :
    (handle.launched outcome).Collects := by
  cases outcome <;> exact collects.congr rfl

/-- Whatever happens to a worker, what its runs return was collected. -/
theorem isLasting_collects : Handle.IsLasting Collects where
  fresh language launcher number := RunResult.allCollected_none
  move handle move collects := by
    cases move with
    | launched outcome =>
        simp only [Handle.move]
        split
        · exact collects.launched outcome
        · exact collects
    | request =>
        simp only [Handle.move]
        cases turned : handle.turnRequest with
        | none => exact collects
        | some after => exact collects.congr (stirs_turnRequest turned).runs
    | message =>
        simp only [Handle.move]
        cases turned : handle.turnMessage with
        | none => exact collects
        | some after => exact collects.congr (stirs_turnMessage turned).runs
    | interpreter act => exact collects.congr rfl
    | run desk broker code => exact collects.run desk broker code
    | turn receiver cancelled desk run =>
        simp only [Handle.move]
        cases turned : handle.turn receiver cancelled desk run with
        | none => exact collects
        | some next => exact collects.turn turned
    | abandon desk run => exact collects.abandon desk run
    | terminate => exact collects.congr handle.stirs_terminate.runs
    | drop => exact collects.congr handle.stirs_drop.runs
  readiness handle after readiness collects turned :=
    collects.congr (stirs_turnReadiness turned).runs

end Handle

/-! ## Calls -/

/-- The result of a call that stands there. -/
def CallPhase.result? : CallPhase → Option RunResult
  | .finished (.ok result) => result
  | .begun | .acquiring _ | .running _ _ | .finished (.error _) | .abandoned => none

namespace Executor

/-- The result of a call. -/
def result? (executor : Executor) (number : Nat) : Option RunResult :=
  (executor.phase? number).bind CallPhase.result?

/-- What the calls of an executor return was collected. -/
def Collects (executor : Executor) : Prop :=
  ∀ number, RunResult.AllCollected (executor.result? number)

variable {executor : Executor} {phase : CallPhase}

theorem result?_eq_some {number : Nat} {result : RunResult} :
    executor.result? number = some result ↔
      executor.outcome? number = some (.ok (some result)) := by
  simp only [result?, outcome?]
  cases executor.phase? number with
  | none => simp
  | some phase =>
      cases phase with
      | finished outcome => cases outcome <;> simp [CallPhase.result?]
      | begun | acquiring start | running handle run | abandoned => simp [CallPhase.result?]

theorem Collects.setPhase (collects : executor.Collects) (number : Nat)
    (collected : RunResult.AllCollected phase.result?) :
    (executor.setPhase number phase).Collects := by
  intro other
  rw [result?, phase?, Executor.setPhase, List.getElem?_modify]
  cases found : executor.calls[other]? with
  | none => exact RunResult.allCollected_none
  | some call =>
      by_cases same : number = other
      · simpa [same] using collected
      · have stood := collects other
        rw [result?, phase?, found] at stood
        simpa [same] using stood

/-- A new call has no result yet. -/
theorem Collects.withCall (collects : executor.Collects) (purpose : Purpose)
    (unended : phase.result? = none) :
    Collects { executor with calls := executor.calls ++ [⟨purpose, phase⟩] } := by
  intro number result returned
  obtain ⟨now, isNow, isResult⟩ := Option.bind_eq_some_iff.mp returned
  obtain ⟨call, found, rfl⟩ := Option.map_eq_some_iff.mp isNow
  rcases Registry.getElem?_concat found with wasThere | rfl
  · exact collects number result (by rw [result?, phase?, wasThere]; exact isResult)
  · rw [unended] at isResult
    contradiction

end Executor

namespace Place

/-- What the calls of an executor return was collected, and so is what its workers give it. -/
structure Collects (place : Place) : Prop where
  handles : place.registry.AllHandles Handle.Collects
  results : place.executor.Collects

variable {place after : Place} {number handle start : Nat} {phase : CallPhase}

theorem Collects.setPhase (collects : place.Collects) (number : Nat)
    (collected : RunResult.AllCollected phase.result?) : (place.setPhase number phase).Collects :=
  ⟨collects.handles, collects.results.setPhase number collected⟩

/-- A call gets somewhere, but not to a result. -/
theorem Collects.goOn (collects : place.Collects) (number : Nat)
    (unended : phase.result? = none) : (place.setPhase number phase).Collects :=
  collects.setPhase number (unended ▸ RunResult.allCollected_none)

/-- One of the workers does something. -/
theorem Collects.work (collects : place.Collects) {worker : Handle} (collected : worker.Collects)
    (desk : Desk) (handle : Nat) :
    Collects { place with
      desk
      registry := place.registry.modifyHandle handle fun _ => worker } :=
  ⟨collects.handles.modifyHandle fun _ _ => collected, collects.results⟩

theorem Collects.proceed (collects : place.Collects) (number handle : Nat) (purpose : Purpose) :
    (place.proceed number handle purpose).Collects := by
  cases purpose with
  | start => exact collects.goOn number rfl
  | execute code =>
      simp only [Place.proceed]
      split
      · exact collects.goOn number rfl
      · rename_i worker found
        have lent := collects.handles handle worker found
        exact (collects.work (lent.run place.desk place.executor.broker code) _ handle).goOn number
          rfl

theorem Collects.turnAcquiring (collects : place.Collects) {purpose : Purpose}
    (turned : place.turnAcquiring number start purpose = some after) : after.Collects := by
  simp only [Place.turnAcquiring] at turned
  split at turned
  · obtain ⟨registry, moved, turned⟩ := Option.bind_eq_some_iff.mp turned
    cases turned
    exact ⟨collects.handles.turnStart Handle.isLasting_collects moved, collects.results⟩
  · rename_i outcome _
    have collected : Collects { place with
        registry := place.registry.collect place.executor.language start outcome } :=
      ⟨collects.handles.of_handles (Registry.handles_collect ..), collects.results⟩
    split at turned
    · cases turned
      exact collected.proceed number _ purpose
    · cases turned
      exact collected.goOn number rfl

theorem Collects.call (collects : place.Collects) (purpose : Purpose) :
    (place.call purpose).1.Collects := by
  have asked := collects.handles.of_handles (Registry.handles_acquire place.registry
    place.executor.language place.executor.launcher place.executor.timeout)
  simp only [Place.call]
  split
  · exact ⟨collects.handles, collects.results.withCall purpose rfl⟩
  · split
    · rename_i registry handle acquired
      rw [acquired] at asked
      have begun : Collects { place with
          registry
          executor := { place.executor with
            calls := place.executor.calls ++ [⟨purpose, .begun⟩] } } :=
        ⟨asked, collects.results.withCall purpose rfl⟩
      exact begun.proceed _ handle purpose
    · rename_i registry start acquired
      rw [acquired] at asked
      have acquiring : Collects { place with
          registry
          executor := { place.executor with
            calls := place.executor.calls ++ [⟨purpose, .acquiring start⟩] } } :=
        ⟨asked, collects.results.withCall purpose rfl⟩
      cases turned : Place.turnAcquiring { place with
          registry
          executor := { place.executor with
            calls := place.executor.calls ++ [⟨purpose, .acquiring start⟩] } }
          place.executor.calls.length start purpose with
      | none => exact acquiring
      | some next => exact acquiring.turnAcquiring turned

/-- A call returns what its run does. -/
theorem Collects.turn (collects : place.Collects) {receiver : String → Option Nat}
    (turned : place.turn receiver number = some after) : after.Collects := by
  simp only [Place.turn] at turned
  obtain ⟨call, -, turned⟩ := Option.bind_eq_some_iff.mp turned
  split at turned
  · exact collects.turnAcquiring turned
  · rename_i handle run _
    obtain ⟨worker, found, turned⟩ := Option.bind_eq_some_iff.mp turned
    have lent := collects.handles handle worker found
    split at turned
    · rename_i result returned
      cases turned
      have collected : RunResult.AllCollected (CallPhase.finished (.ok (some result))).result? :=
        returned ▸ lent run
      exact collects.setPhase number collected
    · obtain ⟨⟨desk, next⟩, moved, turned⟩ := Option.bind_eq_some_iff.mp turned
      cases turned
      exact collects.work (lent.turn moved) desk handle
  all_goals contradiction

theorem Collects.abandon (collects : place.Collects) (number : Nat) :
    (place.abandon number).Collects := by
  simp only [Place.abandon]
  split
  · exact collects.goOn number rfl
  · rename_i handle run _
    split
    · exact collects.goOn number rfl
    · rename_i worker found
      have lent := collects.handles handle worker found
      exact (collects.work (lent.abandon place.desk run) _ handle).goOn number rfl
  all_goals exact collects

theorem Collects.destroy (collects : place.Collects) : place.destroy.Collects := by
  simp only [Place.destroy]
  split
  · exact collects
  · exact ⟨collects.handles.shutdown Handle.isLasting_collects _, collects.results⟩

end Place

end Polyglot.Worker
