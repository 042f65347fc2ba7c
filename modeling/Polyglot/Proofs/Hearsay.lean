import Polyglot.Proofs.Sandbox.Hearsay
import Polyglot.Proofs.Worker.Hearsay

/-!
# Runs that were given up

A call whose caller goes away leaves its context to the next call, whose code is submitted once
what has arrived until then was dropped.  What arrives later of the run that was given up is
taken for output of the next one, and its last message for the end of it.
-/

namespace Polyglot

/-- Whatever calls are given up, a result is made of what the call heard, and no two calls have
one run.  A call heard nothing but what was said for its own code exactly if every earlier run
of its context had told the host its last message when the code was submitted, or nothing was
heard at all. -/
theorem isApart_iff_isTimely (desk : Desk) (language : String) (broker : Nat)
    (events : List Sandbox.Event) (executors : List Worker.Executor)
    (occurrences : List Worker.Occurrence) :
    (∀ testimony,
      ((Sandbox.Chronicle.fresh desk language broker).run events).Tells testimony →
        testimony.IsExplained ∧ (testimony.IsApart ↔ testimony.IsTimely)) ∧
    (∀ testimony,
      ((Worker.Chronicle.fresh desk executors).run occurrences).Tells testimony →
        testimony.IsExplained ∧ (testimony.IsApart ↔ testimony.IsTimely)) ∧
    ((Worker.Chronicle.fresh desk executors).run occurrences).seats.Apart := by
  have sandbox := (Sandbox.Chronicle.sound_fresh desk language broker).run events
  have workers := (Worker.Chronicle.sound_fresh desk executors).run occurrences
  refine ⟨?_, ?_, workers.seating.apart⟩
  · intro testimony tells
    have explained := sandbox.isExplained tells
    exact ⟨explained, explained.isApart_iff⟩
  · intro testimony tells
    have explained := workers.isExplained tells
    exact ⟨explained, explained.isApart_iff⟩

/-- What can happen to an executor after a call was given up: its output comes when the next call
has submitted its code. -/
def Sandbox.givenUp : List Sandbox.Event :=
  [.call (.execute "x"), .launched 0 (.ok ()), .context 0 .listen, .abandon 0,
    .call (.execute "y"), .context 0 (.say (.stdout "A")), .context 0 (.say .executionComplete),
    .poll (fun _ => none) 1, .poll (fun _ => none) 1]

/-- The same with a worker. -/
def Worker.givenUp : List Worker.Occurrence :=
  [.call 0 (.execute "x"), .launched 0 (.ok ()), .interpreter 0 (.say .ready), .message 0,
    .poll (fun _ => none) 0 0, .poll (fun _ => none) 0 0, .request 0, .interpreter 0 .listen,
    .abandon 0 0, .call 0 (.execute "y"), .interpreter 0 (.say (.stdout "A")), .message 0,
    .interpreter 0 (.say .done), .message 0, .poll (fun _ => none) 0 1,
    .poll (fun _ => none) 0 1, .poll (fun _ => none) 0 1]

/-- Calls of both kinds of executor return what was said for code that was given up. -/
theorem returns_what_was_given_up :
    (∃ testimony,
      ((Sandbox.Chronicle.fresh {} "javascript" 0).run Sandbox.givenUp).Tells testimony ∧
        testimony.code = Scan.prepareForSandbox "y" ∧ testimony.result = .success "A" ∧
        ¬testimony.IsApart) ∧
    ∃ testimony,
      ((Worker.Chronicle.fresh {} [⟨"python", 0, ⟨60, 0⟩, 0, false, []⟩]).run
        Worker.givenUp).Tells testimony ∧
        testimony.code = "y" ∧ testimony.result = .success "A" ∧ ¬testimony.IsApart := by
  let hearing : Hearing :=
    { run := 1, reached := 0, heard := [(0, .output (.stdout, "A")), (0, .ending none)] }
  have mixed : ¬hearing.IsApart := fun apart => absurd (apart _ List.mem_cons_self) (by decide)
  constructor
  · have called : ((Sandbox.Chronicle.fresh {} "javascript" 0).run
        Sandbox.givenUp).place.executor.calls[1]? =
          some ⟨.execute "y", .finished (.ok (some (.success "A")))⟩ := rfl
    have found : (((Sandbox.Chronicle.fresh {} "javascript" 0).run
        Sandbox.givenUp).journals 0).hearings 1 = some hearing := rfl
    exact ⟨_, .heard called found, rfl, rfl, fun apart => mixed (apart hearing rfl)⟩
  · have called : ((Worker.Chronicle.fresh {} [⟨"python", 0, ⟨60, 0⟩, 0, false, []⟩]).run
        Worker.givenUp).shop.call? 0 1 =
          some ⟨.execute "y", .finished (.ok (some (.success "A")))⟩ := by
      with_unfolding_all rfl
    have found : (((Worker.Chronicle.fresh {} [⟨"python", 0, ⟨60, 0⟩, 0, false, []⟩]).run
        Worker.givenUp).testimony 0 1 "y" (.success "A")).hearing = some hearing := by
      with_unfolding_all rfl
    exact ⟨_, .returned called, rfl, rfl, fun apart => mixed (apart hearing found)⟩

end Polyglot
