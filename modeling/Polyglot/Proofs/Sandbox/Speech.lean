import Polyglot.Proofs.Channel.Attribution
import Polyglot.Proofs.Channel.Strand
import Polyglot.Sandbox.Executor

/-!
# What sandbox contexts say

A context of a sandbox executor has nothing between it and the host but its link, so the
strand of a context is the link itself.
-/

namespace Polyglot

/-- What a message says of the run that it was sent for. -/
def SandboxMessage.utterance : SandboxMessage → Utterance
  | .stdout data => .output (.stdout, data)
  | .stderr data => .output (.stderr, data)
  | .inputRequest _ => .request
  | .executionComplete => .ending none

theorem SandboxMessage.isAside_utterance (message : SandboxMessage) :
    message.utterance.isAside = false := by
  cases message <;> rfl

/-- The code that a message submits. -/
def HostMessage.code? : HostMessage → Option String
  | .executeCode code => some code
  | .inputResponse _ => none

/-- Whether a message is a run. -/
def HostMessage.isRun (message : HostMessage) : Bool := message.code?.isSome

namespace Sandbox

/-- The code that is queued for a context. -/
def codesOf (context : Context) : List String := context.toContext.filterMap HostMessage.code?

/-- What lies between the host and a context. -/
def strandOf (context : Context) : Strand where
  queued := (codesOf context).length
  voice := context.toHost.map SandboxMessage.utterance
  attached := context.hostOpen

section Context

variable {context after : Context} {account : Account}

/-- The host lets a context go. -/
theorem fades_dropHost (context : Context) :
    (strandOf context).Fades (strandOf context.dropHost) where
  queued := Nat.le_refl _
  voice := List.nil_prefix
  attached reaches := by contradiction

/-- The host sends a message that is not a run. -/
theorem strandOf_hostSend? {message : HostMessage} (noRun : message.code? = none)
    (sent : context.hostSend? message = some after) :
    strandOf after = strandOf context ∧ codesOf after = codesOf context := by
  simp only [Link.hostSend?] at sent
  split at sent
  · cases sent
    simp [strandOf, codesOf, noRun]
  · contradiction

/-- The host drops what is left of earlier runs and submits code. -/
theorem busy_submit (quiet : (strandOf context).Quiet account) (owner : Nat) {code : String}
    (sent : context.drain.hostSend? (.executeCode code) = some after) :
    codesOf after = codesOf context ++ [code] ∧
      (strandOf after).Busy (account.post owner [code]) owner code [] := by
  simp only [Link.hostSend?] at sent
  split at sent
  · cases sent
    refine ⟨by simp [codesOf, Link.drain, HostMessage.code?], quiet.post owner code ?_ rfl⟩
    simp [strandOf, codesOf, Link.drain, HostMessage.code?]
  · contradiction

/-- The host takes the first message of a context in. -/
theorem strandOf_take {message : SandboxMessage} {rest : List SandboxMessage}
    (queue : context.toHost = message :: rest) :
    (strandOf context).voice =
      message.utterance :: (strandOf { context with toHost := rest }).voice := by
  simp only [strandOf, queue, List.map_cons]

/-- A context that handles its runs in order does something. -/
theorem drift_act {act : Link.Act SandboxMessage}
    (allowed : account.allows SandboxMessage.utterance context act = true) :
    (strandOf context).Drift account (strandOf (context.act act))
      (account.act HostMessage.isRun SandboxMessage.utterance context act) := by
  cases act with
  | say message =>
      cases here : context.contextOpen with
      | false =>
          simp only [Link.act, Account.act, here, Bool.false_eq_true, if_false]
          exact .refl _ _
      | true =>
          have permitted : account.permits message.utterance = true := by
            simpa [Account.allows, here] using allowed
          simp only [Link.act, Account.act, here, if_true, Link.contextSend?]
          refine .say permitted ?_ ?_ ?_
          · split <;> rfl
          · cases reaches : context.hostOpen <;>
              simp [strandOf, reaches, message.isAside_utterance]
          · split <;> rfl
  | listen =>
      have voice : (strandOf (context.act .listen)).voice = (strandOf context).voice := by
        simp only [strandOf, Link.toHost_listen]
      have attached : (strandOf (context.act .listen)).attached = (strandOf context).attached :=
        context.hostOpen_act .listen
      have queued : (strandOf (context.act .listen)).queued +
          (if context.toContext.head?.any HostMessage.isRun then 1 else 0) =
            (strandOf context).queued := by
        simp only [strandOf, codesOf, Link.toContext_listen]
        cases context.toContext with
        | nil => rfl
        | cons message rest =>
            cases message <;> simp [HostMessage.isRun, HostMessage.code?, List.filterMap_cons]
      exact .listen queued voice attached account
  | leave =>
      refine .fade ⟨?_, List.prefix_rfl, fun reaches => ⟨reaches, rfl⟩⟩
      simp [strandOf, codesOf, Link.act, Link.dropContext]

end Context

end Sandbox

end Polyglot
