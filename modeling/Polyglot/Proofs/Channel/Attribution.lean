import Polyglot.Failure
import Polyglot.Proofs.Channel.Account
import Polyglot.Run.Purpose

/-!
# What results are made of

A result is collected from what was emitted for the run, from the first of it on, and
from notices of the host's own.  A run that came to nothing has a result of notices
only.
-/

namespace Polyglot

/-- The code of a call. -/
def Purpose.code : Purpose → String
  | .start => ""
  | .execute code => code

/-- Why a host gives a worker up.  The causes are those of the launches that failed. -/
inductive IsReason (failures : List TransportError) : String → Prop where
  | notRunning : IsReason failures "worker is not running"
  | threadExited : IsReason failures "worker thread exited"
  | interpreterExited : IsReason failures "interpreter exited"
  | deaf : IsReason failures "interpreter stopped accepting requests"
  | launch {cause : TransportError} (failed : cause ∈ failures) : IsReason failures cause.message

theorem IsReason.mono {failures more : List TransportError} {reason : String}
    (isReason : IsReason failures reason) (subset : failures ⊆ more) : IsReason more reason := by
  cases isReason with
  | notRunning => exact .notRunning
  | threadExited => exact .threadExited
  | interpreterExited => exact .interpreterExited
  | deaf => exact .deaf
  | launch failed => exact .launch (subset failed)

/-- What a host itself adds to the output of a run. -/
inductive IsNotice (failures : List TransportError) : Chunk → Prop where
  | contextLost : IsNotice failures (.stderr, "Sandbox context terminated unexpectedly")
  | crashed {reason : String} (isReason : IsReason failures reason) :
      IsNotice failures (.stderr, s!"Worker crashed: {reason}")

theorem IsNotice.mono {failures more : List TransportError} {notice : Chunk}
    (isNotice : IsNotice failures notice) (subset : failures ⊆ more) : IsNotice more notice := by
  cases isNotice with
  | contextLost => exact .contextLost
  | crashed isReason => exact .crashed (isReason.mono subset)

theorem isNotice_notRunning (failures : List TransportError) :
    IsNotice failures (.stderr, "Worker crashed: worker is not running") :=
  .crashed .notRunning

/-- A cause that tells nothing of what a context said. -/
def SandboxError.IsOwn (failures : List TransportError) : SandboxError → Prop
  | .destroyed => True
  | .launch cause => cause ∈ failures

/-- A cause that tells nothing of what an interpreter said. -/
def WorkerError.IsOwn (failures : List TransportError) : WorkerError → Prop
  | .startup _ reason => IsReason failures reason
  | .readyTimeout _ _ | .shutDown _ => True
  | .thread _ _ => False

theorem SandboxError.IsOwn.mono {failures more : List TransportError} {cause : SandboxError}
    (isOwn : cause.IsOwn failures) (subset : failures ⊆ more) : cause.IsOwn more := by
  cases cause with
  | destroyed => trivial
  | launch cause => exact subset isOwn

theorem WorkerError.IsOwn.mono {failures more : List TransportError} {cause : WorkerError}
    (isOwn : cause.IsOwn failures) (subset : failures ⊆ more) : cause.IsOwn more := by
  cases cause with
  | startup language reason => exact IsReason.mono isOwn subset
  | readyTimeout language timeout => trivial
  | shutDown language => trivial
  | thread language reason => contradiction

namespace Account

/-- A result is somebody's who submitted code to a context, or tried to: all of its
output was emitted for that code or is the host's own. -/
inductive Yields (account : Account) (failures : List TransportError) (owner : Nat)
    (code : String) (result : RunResult) : Prop where
  | ran {run : Nat} {heard notices : List Chunk} (owns : account.Owns run owner code heard)
      (own : ∀ notice ∈ notices, IsNotice failures notice)
      (collected : result = (Aggregator.gather (heard ++ notices)).finish) :
      Yields account failures owner code result
  /-- The code was not submitted. -/
  | unrun {notices : List Chunk} (own : ∀ notice ∈ notices, IsNotice failures notice)
      (collected : result = (Aggregator.gather notices).finish) :
      Yields account failures owner code result

section Yields

variable {account after : Account} {failures more : List TransportError} {owner run : Nat}
  {code : String} {heard : List Chunk} {result : RunResult}

/-- A result stays somebody's. -/
theorem Yields.mono (yields : account.Yields failures owner code result)
    (later : account.Extends after) (subset : failures ⊆ more) :
    after.Yields more owner code result := by
  cases yields with
  | ran owns own collected =>
      exact .ran (owns.mono later) (fun notice member => (own notice member).mono subset) collected
  | unrun own collected =>
      exact .unrun (fun notice member => (own notice member).mono subset) collected

/-- A run ends with what the host has heard of it. -/
theorem Owns.yields (owns : account.Owns run owner code heard)
    (failures : List TransportError) :
    account.Yields failures owner code (Aggregator.gather heard).finish :=
  .ran owns (fun _ member => absurd member List.not_mem_nil) (by rw [List.append_nil])

/-- A run ends with what the host has heard of it and a notice. -/
theorem Owns.yields_notice (owns : account.Owns run owner code heard) {notice : Chunk}
    (isNotice : IsNotice failures notice) :
    account.Yields failures owner code
      ((Aggregator.gather heard).push notice.1 notice.2).finish := by
  have own : ∀ other ∈ [notice], IsNotice failures other := by
    intro other member
    rw [List.mem_singleton.mp member]
    exact isNotice
  refine .ran owns own ?_
  rw [Aggregator.gather_concat]

/-- A run that came to nothing ends with a notice. -/
theorem yields_unrun (account : Account) (owner : Nat) (code : String) {notice : Chunk}
    (isNotice : IsNotice failures notice) :
    account.Yields failures owner code (Aggregator.push {} notice.1 notice.2).finish := by
  have own : ∀ other ∈ [notice], IsNotice failures other := by
    intro other member
    rw [List.mem_singleton.mp member]
    exact isNotice
  refine .unrun own ?_
  rw [Aggregator.gather, List.foldl_cons, List.foldl_nil]

end Yields

end Account

end Polyglot
