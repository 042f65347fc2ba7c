import Polyglot.Channel.Link

/-!
# Contexts at the end of a link

A context sends messages, takes in what the host sent, and goes away for good.
Nothing else at its end touches the link.
-/

namespace Polyglot.Link

variable {Out In : Type}

/-- What a context does at its end of a link. -/
inductive Act (In : Type) where
  /-- It sends a message. -/
  | say (message : In)
  /-- It takes the next message in. -/
  | listen
  /-- It goes away. -/
  | leave
  deriving Repr, DecidableEq

/-- The link after the context has done something.  A context that is gone sends
nothing. -/
def act (link : Link Out In) : Act In → Link Out In
  | .say message =>
    if link.contextOpen then (link.contextSend? message).getD link else link
  | .listen => link.contextReceive.2
  | .leave => link.dropContext

@[simp] theorem hostOpen_act (link : Link Out In) (act : Act In) :
    (link.act act).hostOpen = link.hostOpen := by
  cases act with
  | say message =>
      simp only [Link.act, contextSend?]
      split
      · split <;> rfl
      · rfl
  | listen =>
      simp only [Link.act, contextReceive]
      split <;> rfl
  | leave => rfl

/-- A context that listens takes what is queued first. -/
theorem toContext_listen (link : Link Out In) :
    (link.act .listen).toContext = link.toContext.tail := by
  simp only [Link.act, contextReceive]
  split
  · rename_i message rest queue
    rw [queue]
    rfl
  · rename_i queue
    rw [queue]
    rfl

@[simp] theorem toHost_listen (link : Link Out In) : (link.act .listen).toHost = link.toHost := by
  simp only [Link.act, contextReceive]
  split <;> rfl

/-- A context adds nothing to what the host sent. -/
theorem length_toContext_act_le (link : Link Out In) (act : Act In) :
    (link.act act).toContext.length ≤ link.toContext.length := by
  cases act with
  | say message =>
      simp only [Link.act, contextSend?]
      split
      · split <;> simp
      · exact Nat.le_refl _
  | listen =>
      simp only [Link.act, contextReceive]
      split
      · rename_i message rest queued
        simp [queued]
      · exact Nat.le_refl _
  | leave => simp [Link.act, dropContext]

/-- Receiving takes nothing away from what the host sent. -/
theorem toContext_of_hostReceive {link after : Link Out In} {found : Received In}
    (received : link.hostReceive = (found, after)) : after.toContext = link.toContext := by
  simp only [hostReceive] at received
  split at received <;> cases received <;> rfl

/-- The context receives the oldest message, and nothing else changes. -/
theorem contextReceive_message {link after : Link Out In} {message : Out}
    (received : link.contextReceive = (.message message, after)) :
    ∃ rest, link.toContext = message :: rest ∧ after = { link with toContext := rest } := by
  simp only [contextReceive] at received
  split at received
  · rename_i rest queued
    cases received
    exact ⟨_, queued, rfl⟩
  · split at received <;> cases received

/-- The host receives the oldest message, and nothing else changes. -/
theorem hostReceive_message {link after : Link Out In} {message : In}
    (received : link.hostReceive = (.message message, after)) :
    ∃ rest, link.toHost = message :: rest ∧ after = { link with toHost := rest } := by
  simp only [hostReceive] at received
  split at received
  · rename_i rest queued
    cases received
    exact ⟨_, queued, rfl⟩
  · split at received <;> cases received

/-- Whoever finds the other side gone has received all that it sent. -/
theorem hostReceive_gone {link after : Link Out In} (received : link.hostReceive = (.gone, after)) :
    link.toHost = [] ∧ link.contextOpen = false := by
  simp only [hostReceive] at received
  split at received
  · cases received
  · rename_i silent
    refine ⟨silent, ?_⟩
    cases here : link.contextOpen <;> simp_all

/-- Whoever has to wait has received all that the other side, which is there, sent. -/
theorem hostReceive_waiting {link after : Link Out In}
    (received : link.hostReceive = (.waiting, after)) :
    link.toHost = [] ∧ link.contextOpen = true := by
  simp only [hostReceive] at received
  split at received
  · cases received
  · rename_i silent
    refine ⟨silent, ?_⟩
    cases here : link.contextOpen <;> simp_all

end Polyglot.Link
