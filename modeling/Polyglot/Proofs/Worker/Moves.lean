import Polyglot.Proofs.Channel.Context
import Polyglot.Worker.Handle

/-!
# Moves of workers

Whatever is done with a worker, at either of its halves or by its interpreter, it stays a worker
of its language, and one that can no longer be given work never can be again.
-/

namespace Polyglot.Worker.Handle

/-- Something that happens to a worker. -/
inductive Move where
  /-- The launch that the relay waits for has an outcome. -/
  | launched (outcome : Except TransportError Unit)
  /-- The relay takes the next request of the handle. -/
  | request
  /-- The relay takes the next message of the interpreter. -/
  | message
  /-- The interpreter does something at its end of the link. -/
  | interpreter (act : Link.Act WorkerMessage)
  /-- Somebody runs code. -/
  | run (desk : Desk) (broker : Nat) (code : String)
  /-- A run takes a turn. -/
  | turn (receiver : String → Option Nat) (cancelled : Bool) (desk : Desk) (run : Nat)
  /-- The caller of a run goes away. -/
  | abandon (desk : Desk) (run : Nat)
  /-- Somebody gives the worker up. -/
  | terminate
  /-- Nobody has the worker any more. -/
  | drop

/-- Whether hosts do it, and not the relay or the interpreter. -/
def Move.IsHosts : Move → Prop
  | .run _ _ _ | .turn _ _ _ _ | .abandon _ _ | .terminate | .drop => True
  | .launched _ | .request | .message | .interpreter _ => False

/-- The worker after a move. -/
def move (handle : Handle) : Move → Handle
  | .launched outcome => if handle.relay = .launching then handle.launched outcome else handle
  | .request => handle.turnRequest.getD handle
  | .message => handle.turnMessage.getD handle
  | .interpreter act => { handle with interpreter := handle.interpreter.map (·.act act) }
  | .run desk broker code => (handle.run desk broker code).2.1
  | .turn receiver cancelled desk run =>
    ((handle.turn receiver cancelled desk run).getD (desk, handle)).2
  | .abandon desk run => (handle.abandon desk run).2
  | .terminate => handle.terminate
  | .drop => handle.drop

/-- What becomes of a worker: it keeps its language, and gains no life. -/
structure Wanes (before after : Handle) : Prop where
  language : after.language = before.language
  alive : after.alive = true → before.alive = true
  contextOpen : after.line.contextOpen = true → before.line.contextOpen = true

variable {before middle after handle : Handle} {desk desk' : Desk} {number : Nat}

namespace Wanes

theorem refl (handle : Handle) : handle.Wanes handle := ⟨rfl, id, id⟩

theorem trans (first : before.Wanes middle) (second : middle.Wanes after) : before.Wanes after where
  language := second.language.trans first.language
  alive alive := first.alive (second.alive alive)
  contextOpen isOpen := first.contextOpen (second.contextOpen isOpen)

theorem isAlive (wanes : before.Wanes after) (isAlive : after.isAlive = true) :
    before.isAlive = true := by
  simp only [Handle.isAlive, Link.isClosed, Bool.not_not, Bool.and_eq_true] at isAlive ⊢
  exact ⟨wanes.alive isAlive.1, wanes.contextOpen isAlive.2⟩

end Wanes

/-! ## The handle and the relay -/

section Halves

theorem wanes_markDead (handle : Handle) : handle.Wanes handle.markDead :=
  ⟨rfl, fun alive => by simp [markDead] at alive, id⟩

theorem wanes_request? {request : Request} (sent : handle.request? request = some after) :
    handle.Wanes after := by
  simp only [request?, Link.hostSend?] at sent
  split at sent
  · cases sent
    exact ⟨rfl, id, id⟩
  · contradiction

theorem wanes_terminate (handle : Handle) : handle.Wanes handle.terminate := by
  simp only [terminate]
  split
  · cases sent : handle.markDead.request? .terminate with
    | none => exact wanes_markDead handle
    | some after => exact (wanes_markDead handle).trans (wanes_request? sent)
  · exact .refl handle

theorem wanes_drop (handle : Handle) : handle.Wanes handle.drop :=
  (wanes_terminate handle).trans ⟨rfl, id, id⟩

theorem wanes_returnRelay (handle : Handle) : handle.Wanes handle.returnRelay :=
  ⟨rfl, id, fun isOpen => by simp [returnRelay, Link.dropContext] at isOpen⟩

theorem wanes_fault (handle : Handle) (reason : String) : handle.Wanes (handle.fault reason) :=
  ⟨rfl, id, fun isOpen => by simp [fault, returnRelay, Link.dropContext] at isOpen⟩

theorem wanes_forward (handle : Handle) (interpreter : Link InterpreterRequest WorkerMessage)
    (request : InterpreterRequest) : handle.Wanes (handle.forward interpreter request) := by
  simp only [forward]
  split
  · exact ⟨rfl, id, id⟩
  · exact wanes_fault ..

theorem wanes_launched (handle : Handle) (outcome : Except TransportError Unit) :
    handle.Wanes (handle.launched outcome) := by
  cases outcome with
  | ok launched => exact ⟨rfl, id, id⟩
  | error cause => exact wanes_fault ..

theorem contextOpen_contextReceive {Out In : Type} (link : Link Out In) :
    link.contextReceive.2.contextOpen = link.contextOpen := by
  simp only [Link.contextReceive]
  split <;> rfl

theorem contextOpen_hostReceive {Out In : Type} (link : Link Out In) :
    link.hostReceive.2.contextOpen = link.contextOpen := by
  simp only [Link.hostReceive]
  split <;> rfl

theorem wanes_turnRequest (turned : handle.turnRequest = some after) : handle.Wanes after := by
  simp only [turnRequest] at turned
  split at turned
  · contradiction
  · obtain ⟨interpreter, -, turned⟩ := Option.bind_eq_some_iff.mp turned
    split at turned
    · contradiction
    · cases turned
      exact wanes_returnRelay handle
    · rename_i request line received
      have sameOpen := contextOpen_contextReceive handle.line
      rw [received] at sameOpen
      have took : handle.Wanes { handle with line } :=
        ⟨rfl, id, fun isOpen => sameOpen ▸ isOpen⟩
      cases request with
      | run code =>
          cases turned
          exact took.trans (wanes_forward ..)
      | inputResponse value =>
          cases turned
          exact took.trans (wanes_forward ..)
      | terminate =>
          cases turned
          exact took.trans (wanes_returnRelay _)

theorem wanes_turnMessage (turned : handle.turnMessage = some after) : handle.Wanes after := by
  simp only [turnMessage, Link.contextSend?] at turned
  split at turned
  · contradiction
  · obtain ⟨interpreter, -, turned⟩ := Option.bind_eq_some_iff.mp turned
    split at turned
    · contradiction
    · cases turned
      exact wanes_fault ..
    · split at turned
      · rename_i sent
        split at sent
        · cases sent
          cases turned
          exact ⟨rfl, id, id⟩
        · contradiction
      · cases turned
        exact ⟨rfl, id, fun isOpen => by simp [returnRelay, Link.dropContext] at isOpen⟩

theorem wanes_turnReadiness {readiness : Readiness}
    (turned : handle.turnReadiness = some (after, readiness)) : handle.Wanes after := by
  have sameOpen := contextOpen_hostReceive handle.line
  simp only [turnReadiness] at turned
  split at turned
  · contradiction
  all_goals
    rename_i received
    rw [received] at sameOpen
    cases turned
    exact ⟨rfl, id, fun isOpen => sameOpen ▸ isOpen⟩

end Halves

/-! ## The turns of the relay -/

section Relay

/-- What a relay does with the next request of its handle. -/
inductive Requested (handle : Handle) : Handle → Prop where
  /-- It is told to stop, or nobody is left to ask for anything. -/
  | stops {line : Link Request Event} (same : line.toHost = handle.line.toHost) :
      Requested handle (returnRelay { handle with line })
  | forwards {request : Request} {rest : List Request} {message : InterpreterRequest}
      {interpreter : Link InterpreterRequest WorkerMessage}
      (queue : handle.line.toContext = request :: rest) (other : request ≠ .terminate)
      (at_ : handle.interpreter = some interpreter) (here : interpreter.contextOpen = true) :
      Requested handle { handle with
        line := { handle.line with toContext := rest }
        interpreter := some { interpreter with toContext := interpreter.toContext ++ [message] } }
  /-- The interpreter is gone. -/
  | refused {request : Request} {rest : List Request}
      {interpreter : Link InterpreterRequest WorkerMessage}
      (queue : handle.line.toContext = request :: rest) (other : request ≠ .terminate)
      (at_ : handle.interpreter = some interpreter) (gone : interpreter.contextOpen = false) :
      Requested handle (fault { handle with line := { handle.line with toContext := rest } }
        "interpreter stopped accepting requests")

theorem requested_of_turnRequest (turned : handle.turnRequest = some after) :
    handle.relay = .relaying ∧ handle.Requested after := by
  simp only [turnRequest] at turned
  split at turned
  · contradiction
  · rename_i relaying
    refine ⟨by simpa using relaying, ?_⟩
    obtain ⟨interpreter, at_, turned⟩ := Option.bind_eq_some_iff.mp turned
    split at turned
    · contradiction
    · cases turned
      exact .stops rfl
    · rename_i request line received
      obtain ⟨rest, queue, rfl⟩ := Link.contextReceive_message received
      have forwarded {message : InterpreterRequest} (other : request ≠ .terminate)
          (isAfter : some (forward { handle with line := { handle.line with toContext := rest } }
            interpreter message) = some after) : handle.Requested after := by
        simp only [forward, Link.hostSend?] at isAfter
        split at isAfter
        · rename_i sent
          split at sent
          · rename_i here
            cases sent
            cases isAfter
            exact .forwards queue other at_ here
          · contradiction
        · rename_i lost
          split at lost
          · contradiction
          · rename_i gone
            cases isAfter
            exact .refused queue other at_ (by simpa using gone)
      cases request with
      | run code => exact forwarded (by simp) turned
      | inputResponse value => exact forwarded (by simp) turned
      | terminate =>
          cases turned
          exact .stops rfl

/-- What a relay does with the next message of its interpreter. -/
inductive Messaged (handle : Handle) : Handle → Prop where
  /-- The interpreter is gone, and has nothing left to say. -/
  | exits {interpreter : Link InterpreterRequest WorkerMessage}
      (at_ : handle.interpreter = some interpreter) (silent : interpreter.toHost = [])
      (gone : interpreter.contextOpen = false) :
      Messaged handle (handle.fault "interpreter exited")
  | passes {interpreter : Link InterpreterRequest WorkerMessage} {content : WorkerMessage}
      {rest : List WorkerMessage} (at_ : handle.interpreter = some interpreter)
      (queue : interpreter.toHost = content :: rest) (isOpen : handle.line.hostOpen = true) :
      Messaged handle { handle with
        line := { handle.line with toHost := handle.line.toHost ++ [.message content] }
        interpreter := some { interpreter with toHost := rest } }
  /-- Nobody has the handle any more. -/
  | stops {interpreter next : Link InterpreterRequest WorkerMessage}
      (at_ : handle.interpreter = some interpreter) (closed : handle.line.hostOpen = false) :
      Messaged handle (returnRelay { handle with interpreter := some next })

theorem messaged_of_turnMessage (turned : handle.turnMessage = some after) :
    handle.relay = .relaying ∧ handle.Messaged after := by
  simp only [turnMessage] at turned
  split at turned
  · contradiction
  · rename_i relaying
    refine ⟨by simpa using relaying, ?_⟩
    obtain ⟨interpreter, at_, turned⟩ := Option.bind_eq_some_iff.mp turned
    split at turned
    · contradiction
    · rename_i received
      cases turned
      obtain ⟨silent, gone⟩ := Link.hostReceive_gone received
      exact .exits at_ silent gone
    · rename_i content next received
      obtain ⟨rest, queue, rfl⟩ := Link.hostReceive_message received
      simp only [Link.contextSend?] at turned
      split at turned
      · rename_i sent
        split at sent
        · rename_i isOpen
          cases sent
          cases turned
          exact .passes at_ queue isOpen
        · contradiction
      · rename_i lost
        split at lost
        · contradiction
        · rename_i closed
          cases turned
          exact .stops at_ (by simpa using closed)

variable {holds : Handle → Prop}

/-- What holds of a worker, and of whatever its relay makes of a request, holds after the move. -/
theorem holds_request (stays : holds handle)
    (turns : ∀ after, handle.relay = .relaying → handle.Requested after → holds after) :
    holds (handle.move .request) := by
  cases turned : handle.turnRequest with
  | none => simpa [Handle.move, turned] using stays
  | some after =>
      obtain ⟨relaying, requested⟩ := requested_of_turnRequest turned
      simpa [Handle.move, turned] using turns after relaying requested

theorem holds_message (stays : holds handle)
    (turns : ∀ after, handle.relay = .relaying → handle.Messaged after → holds after) :
    holds (handle.move .message) := by
  cases turned : handle.turnMessage with
  | none => simpa [Handle.move, turned] using stays
  | some after =>
      obtain ⟨relaying, messaged⟩ := messaged_of_turnMessage turned
      simpa [Handle.move, turned] using turns after relaying messaged

end Relay

/-! ## Runs -/

section Runs

variable {receiver : String → Option Nat} {cancelled : Bool} {run : Run}

/-- A run finds the worker lost. -/
theorem wanes_lost (handle : Handle) (number : Nat) (output : Aggregator) :
    handle.Wanes (handle.markDead.finish number output) :=
  ⟨rfl, fun alive => by simp [markDead, finish, setPhase] at alive, id⟩

theorem wanes_turnQueued (turned : turnQueued desk handle number run = some (desk', after)) :
    handle.Wanes after := by
  simp only [turnQueued] at turned
  split at turned
  · contradiction
  · split at turned
    · rename_i next submitted
      cases turned
      split at submitted
      · have sent := wanes_request? submitted
        exact ⟨sent.language, sent.alive, sent.contextOpen⟩
      · contradiction
    · cases turned
      have lost := wanes_lost { handle with line := handle.line.drain } number
        (Aggregator.push {} .stderr "Worker crashed: worker is not running")
      exact ⟨lost.language, lost.alive, lost.contextOpen⟩

theorem wanes_run (handle : Handle) (desk : Desk) (broker : Nat) (code : String) :
    handle.Wanes (handle.run desk broker code).2.1 := by
  simp only [Handle.run]
  cases turned : turnQueued desk { handle with
      runs := handle.runs ++ [{ code, broker }], lock := handle.lock.enter handle.runs.length }
      handle.runs.length { code, broker } with
  | none => exact ⟨rfl, id, id⟩
  | some next =>
      have queued := wanes_turnQueued turned
      exact ⟨queued.language, queued.alive, queued.contextOpen⟩

theorem wanes_receive (broker : Nat) (output : Aggregator) (pending : List Nat) (event : Event) :
    handle.Wanes (receive receiver desk handle number broker output pending event).2 := by
  cases event with
  | fault reason => exact wanes_lost ..
  | message content => cases content <;> exact ⟨rfl, id, id⟩

theorem wanes_answer {broker : Nat} {output : Aggregator} {pending : List Nat}
    (answered : answer desk handle number broker output pending = some (desk', after)) :
    handle.Wanes after := by
  cases pending with
  | nil => contradiction
  | cons ticket rest =>
      simp only [answer] at answered
      obtain ⟨value, -, answered⟩ := Option.bind_eq_some_iff.mp answered
      split at answered
      · cases answered
        exact wanes_lost ..
      · rename_i next sent
        cases answered
        have sent := wanes_request? sent
        exact ⟨sent.language, sent.alive, sent.contextOpen⟩

theorem wanes_turn (turned : handle.turn receiver cancelled desk number = some (desk', after)) :
    handle.Wanes after := by
  simp only [Handle.turn] at turned
  obtain ⟨run, -, turned⟩ := Option.bind_eq_some_iff.mp turned
  split at turned
  · exact wanes_turnQueued turned
  · simp only [turnRunning] at turned
    split at turned
    · cases turned
      exact (wanes_terminate handle).trans ⟨rfl, id, id⟩
    · have sameOpen := contextOpen_hostReceive handle.line
      split at turned
      · rename_i event line received
        rw [received] at sameOpen
        have took : handle.Wanes { handle with line } :=
          ⟨rfl, id, fun isOpen => sameOpen ▸ isOpen⟩
        have isAfter : _ = after := congrArg Prod.snd (Option.some.inj turned)
        rw [← isAfter]
        exact took.trans (wanes_receive ..)
      · cases turned
        exact wanes_lost ..
      · exact wanes_answer turned
  · contradiction
  · contradiction

theorem wanes_abandon (handle : Handle) (desk : Desk) (number : Nat) :
    handle.Wanes (handle.abandon desk number).2 := by
  simp only [Handle.abandon]
  split
  · exact .refl handle
  · split <;> exact ⟨rfl, id, id⟩

end Runs

/-- A move of a worker gives it no life. -/
theorem wanes_move (handle : Handle) (move : Move) : handle.Wanes (handle.move move) := by
  cases move with
  | launched outcome =>
      simp only [Handle.move]
      split
      · exact wanes_launched handle outcome
      · exact .refl handle
  | request =>
      cases turned : handle.turnRequest with
      | none => simpa [Handle.move, turned] using Wanes.refl handle
      | some after => simpa [Handle.move, turned] using wanes_turnRequest turned
  | message =>
      cases turned : handle.turnMessage with
      | none => simpa [Handle.move, turned] using Wanes.refl handle
      | some after => simpa [Handle.move, turned] using wanes_turnMessage turned
  | interpreter act => exact ⟨rfl, id, id⟩
  | run desk broker code => exact wanes_run ..
  | turn receiver cancelled desk run =>
      cases turned : handle.turn receiver cancelled desk run with
      | none => simpa [Handle.move, turned] using Wanes.refl handle
      | some next => simpa [Handle.move, turned] using wanes_turn turned
  | abandon desk run => exact wanes_abandon ..
  | terminate => exact wanes_terminate handle
  | drop => exact wanes_drop handle

/-- The worker after several moves. -/
def moved (handle : Handle) (moves : List Move) : Handle := moves.foldl move handle

@[simp] theorem moved_nil (handle : Handle) : handle.moved [] = handle := rfl

@[simp] theorem moved_cons (handle : Handle) (move : Move) (moves : List Move) :
    handle.moved (move :: moves) = (handle.move move).moved moves := rfl

end Polyglot.Worker.Handle
