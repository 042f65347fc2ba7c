import Polyglot.Proofs.Input.Serving
import Polyglot.Proofs.Sandbox.Correspondence

/-!
# The broker of a sandbox executor

Whoever calls a sandbox executor makes one call after the other.  Its broker serves the
call that goes on, also while a launch ends that an earlier call waited for.
-/

namespace Polyglot.Sandbox.Executor

/-- The broker of an executor serves a call and nobody else. -/
structure Serves (desk : Desk) (executor : Executor) (number : Nat) : Prop where
  coherent : executor.Coherent
  serves : desk.Serves executor.broker executor.isDestroyed (executor.heldTickets number)

variable {executor after : Executor} {desk desk' : Desk} {number other : Nat}
  {receiver : String → Option Nat}

theorem heldTickets_eq (executor : Executor) (number : Nat) :
    executor.heldTickets number = (executor.holding number).tickets := by
  simp only [heldTickets, holding]
  cases executor.phase? number with
  | none => rfl
  | some phase => cases phase <;> rfl

/-- A call that is over holds nothing. -/
theorem heldTickets_of_outcome? {outcome : Except SandboxError (Option RunResult)}
    (ended : executor.outcome? number = some outcome) : executor.heldTickets number = [] := by
  simp only [outcome?] at ended
  split at ended
  · rename_i found
    simp [heldTickets, found]
  · contradiction

/-- A call that was not made holds nothing. -/
theorem holding_length (executor : Executor) :
    executor.holding executor.calls.length = .before := by
  simp [holding, phase?]

/-- The number of a new call is that of the calls before it. -/
theorem number_call (executor : Executor) (desk : Desk) (purpose : Purpose) :
    (executor.call desk purpose).2.2 = executor.calls.length := by
  rcases executor.call_eq desk purpose with ⟨outcome, -, -, called⟩ | ⟨turned, -, called⟩
  · rw [called]
  · rw [called]

namespace Serves

/-- The broker of an executor whose call holds nothing serves whoever comes next. -/
theorem unheld (serves : executor.Serves desk number)
    (nothing : executor.heldTickets number = []) :
    desk.Serves executor.broker executor.isDestroyed [] := by
  rw [← nothing]
  exact serves.serves

/-- The call goes on. -/
theorem dealt (serves : executor.Serves desk number) (coherent : after.Coherent)
    (dealt : executor.Dealt receiver desk number desk' after) : after.Serves desk' number where
  coherent := coherent
  serves := by
    have held := serves.serves
    rw [heldTickets_eq] at held
    rw [heldTickets_eq, dealt.broker, dealt.destroyed]
    exact held.deals dealt.deals

/-- Another call goes on that has not begun, while this one holds nothing. -/
theorem dealtAside (serves : executor.Serves desk number) (coherent : after.Coherent)
    (dealt : executor.Dealt receiver desk other desk' after) (different : number ≠ other)
    (nothing : executor.heldTickets number = []) (waits : executor.holding other = .before) :
    after.Serves desk' number where
  coherent := coherent
  serves := by
    have deals := dealt.deals
    rw [waits] at deals
    have served := Desk.Serves.deals (serves.unheld nothing) deals
    rw [deals.tickets_of_before] at served
    rw [heldTickets_eq] at nothing
    rw [heldTickets_eq, dealt.others number different, nothing, dealt.broker, dealt.destroyed]
    exact served

theorem turn (serves : executor.Serves desk number)
    (turned : executor.turn receiver desk number = some (desk', after)) :
    after.Serves desk' number :=
  serves.dealt (serves.coherent.turn turned) (dealt_turn receiver turned)

/-- The executor is called again after a call that holds nothing any more. -/
theorem call (serves : executor.Serves desk number) (nothing : executor.heldTickets number = [])
    (purpose : Purpose) :
    (executor.call desk purpose).2.1.Serves (executor.call desk purpose).1
      executor.calls.length := by
  have next : executor.Serves desk executor.calls.length := by
    refine ⟨serves.coherent, ?_⟩
    rw [heldTickets_eq, holding_length]
    exact serves.unheld nothing
  exact next.dealt (serves.coherent.call desk purpose)
    (dealt_call (fun _ => none) executor desk purpose)

/-- A launch ends that some call waited for. -/
theorem launched (serves : executor.Serves desk number)
    (launching : executor.isLaunching other = true) (purpose : Purpose)
    (outcome : Except TransportError Unit) :
    (Executor.launched desk executor other purpose outcome).2.Serves
      (Executor.launched desk executor other purpose outcome).1 number := by
  have called := Place.isInside_of_isLaunching launching
  have holder := serves.coherent.holder_of_inside called rfl
  have coherent := serves.coherent.launched holder desk purpose outcome
  have dealt := dealt_launched (fun _ => none) called desk purpose outcome
  by_cases own : number = other
  · subst own
    exact serves.dealt coherent dealt
  · refine serves.dealtAside coherent dealt own ?_ (holding_of_phase? called)
    -- Only the holder of the lock has code that runs, and that is the other call.
    rw [heldTickets_eq]
    cases holds : executor.holding number with
    | before => rfl
    | during tickets => exact absurd (serves.coherent.eq_of_during holder holds) own
    | ended => rfl

/-- The executor is destroyed, and the requests of the call are withdrawn. -/
theorem destroy (serves : executor.Serves desk number) :
    (executor.destroy desk).2.Serves (executor.destroy desk).1 number := by
  have coherent := serves.coherent.destroy desk
  cases gone : executor.isDestroyed with
  | true =>
      have nothing : executor.destroy desk = (desk, executor) := by simp [Executor.destroy, gone]
      rw [nothing]
      exact serves
  | false =>
      obtain ⟨isDesk, destroyed, broker, calls, -⟩ := destroy_of_stands gone desk
      refine ⟨coherent, ?_⟩
      have same : (executor.destroy desk).2.heldTickets number = executor.heldTickets number := by
        rw [heldTickets_eq, holding_congr calls, heldTickets_eq]
      rw [isDesk, destroyed, broker, same]
      exact serves.serves.withdraw

/-- A context of the executor does something at its end of the link. -/
theorem act (serves : executor.Serves desk number) (context : Nat)
    (act : Link.Act SandboxMessage) :
    Serves desk { executor with contexts := executor.contexts.modify context (·.act act) }
      number :=
  ⟨serves.coherent.act act, serves.serves⟩

end Serves

end Polyglot.Sandbox.Executor
