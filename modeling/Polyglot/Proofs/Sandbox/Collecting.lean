import Polyglot.Proofs.Run.Trimming
import Polyglot.Proofs.Sandbox.Refusal

/-!
# Results of a sandbox executor

Whatever a call returns was collected from the output of its run.  This holds of each call by
itself, whatever became of the others.
-/

namespace Polyglot.Sandbox

/-- The result of a call that stands there. -/
def Phase.result? : Phase → Option RunResult
  | .finished (.ok result) => result
  | .queued | .launching | .running _ _ | .finished (.error _) | .abandoned => none

namespace Executor

/-- The result of a call. -/
def result? (executor : Executor) (number : Nat) : Option RunResult :=
  (executor.phase? number).bind Phase.result?

/-- What a call returns was collected. -/
def Collects (executor : Executor) (number : Nat) : Prop :=
  RunResult.AllCollected (executor.result? number)

/-- One call gets somewhere; if that is its end, its result was collected. -/
def Furthers (before : Executor) (number : Nat) (after : Executor) : Prop :=
  ∃ phase : Phase, RunResult.AllCollected phase.result? ∧
    after.calls = (before.setPhase number phase).calls

variable {executor before ready after : Executor} {number other : Nat}

/-! ## Phases -/

section Phases

theorem result?_eq_some {result : RunResult} :
    executor.result? number = some result ↔
      executor.outcome? number = some (.ok (some result)) := by
  simp only [result?, outcome?]
  cases executor.phase? number with
  | none => simp
  | some phase =>
      cases phase with
      | finished outcome => cases outcome <;> simp [Phase.result?]
      | queued | launching | running output pending | abandoned => simp [Phase.result?]

theorem Collects.congr (collects : before.Collects number)
    (same : after.phase? number = before.phase? number) : after.Collects number := by
  rwa [Collects, result?, same]

theorem Furthers.collects (furthers : before.Furthers other after)
    (collects : before.Collects number) : after.Collects number := by
  obtain ⟨phase, collected, calls⟩ := furthers
  by_cases same : number = other
  · rw [Collects, result?, phase?_congr calls, phase?_setPhase, if_pos same]
    cases before.phase? number with
    | none => exact RunResult.allCollected_none
    | some old => exact collected
  · exact collects.congr (by rw [phase?_congr calls, phase?_setPhase, if_neg same])

theorem furthers_of_calls (calls : ready.calls = before.calls) {phase : Phase}
    (collected : RunResult.AllCollected phase.result?)
    (isAfter : after.calls = (ready.setPhase number phase).calls) :
    before.Furthers number after := by
  refine ⟨phase, collected, ?_⟩
  rw [isAfter, setPhase, setPhase, calls]

/-- One call gets somewhere, but not to a result. -/
theorem furthers_of_result? (calls : ready.calls = before.calls) {phase : Phase}
    (unended : phase.result? = none)
    (isAfter : after.calls = (ready.setPhase number phase).calls) :
    before.Furthers number after :=
  furthers_of_calls calls (unended ▸ RunResult.allCollected_none) isAfter

end Phases

/-! ## Turns -/

section Turns

variable {receiver : String → Option Nat} {desk desk' : Desk} {output : Aggregator}
  {pending : List Nat} {purpose : Purpose}

theorem furthers_conclude (calls : ready.calls = before.calls) (desk : Desk) (number : Nat)
    (output : Aggregator) (ending : Ending) :
    before.Furthers number (conclude desk ready number output ending).2 := by
  have collected (output : Aggregator) :
      RunResult.AllCollected (Phase.finished (.ok (some output.finish))).result? :=
    RunResult.allCollected_finish output
  have released := (calls_release ready).trans calls
  cases ending with
  | completed =>
      exact furthers_of_calls ((calls_transition ..).trans calls) (collected _) rfl
  | contextLost =>
      exact furthers_of_calls ((calls_transition ..).trans released) (collected _) rfl
  | destroyed => exact furthers_of_calls released (collected _) rfl

theorem furthers_submit (calls : ready.calls = before.calls) (desk : Desk) (number : Nat)
    (code : String) : before.Furthers number (submit desk ready number code).2 := by
  simp only [submit]
  split
  · exact furthers_of_result? calls rfl rfl
  · rename_i context _
    have drained : ((ready.setContext context.drain).transition .executing).calls =
        before.calls := by
      rw [calls_transition, calls_setContext, calls]
    split
    · exact furthers_conclude drained _ _ _ _
    · exact furthers_of_result? ((calls_setContext ..).trans drained) rfl rfl

theorem furthers_proceed (calls : ready.calls = before.calls) (desk : Desk) (number : Nat)
    (purpose : Purpose) : before.Furthers number (proceed desk ready number purpose).2 := by
  cases purpose with
  | start => exact furthers_of_result? calls rfl rfl
  | execute code => exact furthers_submit calls desk number code

theorem furthers_turnQueued
    (turned : turnQueued desk before number purpose = some (desk', after)) :
    before.Furthers number after := by
  simp only [turnQueued] at turned
  split at turned
  · contradiction
  · split at turned
    · cases turned
      exact furthers_of_result? rfl rfl rfl
    · split at turned
      · have isAfter := congrArg Prod.snd (Option.some.inj turned)
        rw [← show _ = after from isAfter]
        exact furthers_proceed rfl desk number purpose
      · cases turned
        exact furthers_of_result? (calls_transition ..) rfl rfl

theorem furthers_launched (desk : Desk) (executor : Executor) (number : Nat) (purpose : Purpose)
    (outcome : Except TransportError Unit) :
    executor.Furthers number (launched desk executor number purpose outcome).2 := by
  cases outcome with
  | ok =>
      exact furthers_proceed ((calls_transition ..).trans (calls_adopt executor)) desk number
        purpose
  | error cause =>
      exact furthers_of_result? ((calls_transition ..).trans (calls_release executor))
        rfl rfl

theorem furthers_turnRunning
    (turned : turnRunning receiver desk before number output pending = some (desk', after)) :
    before.Furthers number after := by
  have concluded {ready : Executor} {ending : Ending} {desk : Desk}
      (calls : ready.calls = before.calls)
      (isAfter : some (conclude desk ready number output ending) = some (desk', after)) :
      before.Furthers number after := by
    rw [← show _ = after from congrArg Prod.snd (Option.some.inj isAfter)]
    exact furthers_conclude calls desk number output ending
  simp only [turnRunning] at turned
  split at turned
  · exact concluded rfl turned
  · split at turned
    · exact concluded rfl turned
    · split at turned
      · rename_i message context _
        have calls : (before.setContext context).calls = before.calls := calls_setContext ..
        cases message with
        | executionComplete =>
            have isLast : some (conclude desk (before.setContext context) number output
                .completed) = some (desk', after) := turned
            exact concluded calls isLast
        | stdout data | stderr data | inputRequest prompt =>
            cases turned
            exact furthers_of_result? calls rfl rfl
      · exact concluded rfl turned
      · cases pending with
        | nil => contradiction
        | cons ticket rest =>
            obtain ⟨value, -, turned⟩ := Option.bind_eq_some_iff.mp turned
            split at turned
            · exact concluded rfl turned
            · cases turned
              exact furthers_of_result? (calls_setContext ..) rfl rfl

theorem furthers_turn (turned : before.turn receiver desk number = some (desk', after)) :
    before.Furthers number after := by
  simp only [turn] at turned
  obtain ⟨call, -, turned⟩ := Option.bind_eq_some_iff.mp turned
  split at turned
  · exact furthers_turnQueued turned
  · exact furthers_turnRunning turned
  all_goals contradiction

end Turns

/-! ## Whatever happens -/

/-- A call that was not made returns nothing. -/
theorem collects_length (executor : Executor) : executor.Collects executor.calls.length := by
  simp [Collects, result?, phase?, RunResult.AllCollected]

theorem Collects.withCall (collects : executor.Collects number) (purpose : Purpose) {phase : Phase}
    (unended : phase.result? = none) : (executor.withCall purpose phase).Collects number := by
  rw [Collects, result?, phase?_withCall]
  split
  · rw [Option.bind_some, unended]
    exact RunResult.allCollected_none
  · exact collects

/-- A new call is over at once without a result, or takes its first turn. -/
theorem Collects.call (collects : executor.Collects number) (desk : Desk) (purpose : Purpose) :
    (executor.call desk purpose).2.1.Collects number := by
  rcases executor.call_eq desk purpose with
    ⟨outcome, -, isOutcome, called⟩ | ⟨turned, first, called⟩
  · rw [called]
    refine collects.withCall purpose ?_
    rcases isOutcome with rfl | rfl <;> rfl
  · have asked : (executor.ask purpose).Collects number :=
      collects.withCall purpose rfl
    rw [called, first]
    cases turn : turnQueued desk (executor.ask purpose) executor.calls.length purpose with
    | none => exact asked
    | some next => exact (furthers_turnQueued turn).collects asked

/-- Whatever happens to an executor, what a call returns was collected. -/
theorem Collects.moves (collects : executor.Collects number) (moves : executor.Moves after) :
    after.Collects number := by
  cases moves with
  | stays => exact collects
  | release => exact collects.congr (phase?_congr (calls_release executor) number)
  | event desk event =>
      cases event with
      | call purpose => exact collects.call desk purpose
      | poll receiver other =>
          simp only [Place.step]
          cases turned : executor.turn receiver desk other with
          | none => exact collects
          | some next => exact (furthers_turn turned).collects collects
      | launched other outcome =>
          simp only [Place.step]
          split
          · exact (furthers_launched ..).collects collects
          · exact collects
      | abandon other =>
          simp only [Place.step, Executor.abandon]
          split
          · exact collects
          · exact (furthers_of_result? rfl rfl rfl).collects collects
      | destroy =>
          simp only [Place.step, Executor.destroy]
          split
          · exact collects
          · split
            · exact collects.congr (phase?_congr (calls_release _) number)
            · exact collects
      | context other act => exact collects.congr rfl
      | desk desk => exact collects

end Executor

end Polyglot.Sandbox
