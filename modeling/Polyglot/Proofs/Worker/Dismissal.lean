import Polyglot.Proofs.Worker.Letting
import Polyglot.Proofs.Worker.Sharing

/-!
# Workers that are given up

A worker that was given up asks its relay to stop at most once, and most of the ways to find a
worker lost ask nothing at all.  That is enough: whoever finds it lost has heard so from a relay
that was over, and whoever gives it up first leaves the request in the queue.  So a relay that
still holds its interpreter either has a handle that is alive or will come across a reason to
stop, after no more requests than there are in its queue.  A relay that tells of a fault does
nothing else afterwards; telling it and being over are one step.
-/

namespace Polyglot.Worker

namespace Handle

/-- The relay is over or will come across a reason to stop: a request to do so, or the end of a
queue that nobody fills any more. -/
def IsStopped (handle : Handle) : Prop :=
  handle.relay = .returned ∨ .terminate ∈ handle.line.toContext ∨ handle.line.hostOpen = false

/-- What holds of a worker whatever happened to it. -/
structure Tended (handle : Handle) : Prop where
  shut : handle.line.contextOpen = false → handle.relay = .returned
  faulted : ∀ reason, .fault reason ∈ handle.line.toHost → handle.relay = .returned
  armed : handle.relay = .relaying → handle.interpreter.isSome = true
  freed : handle.relay = .returned → ∀ interpreter, handle.interpreter = some interpreter →
    interpreter.hostOpen = false
  told : handle.alive = false → handle.IsStopped

theorem tended_fresh (language : String) (launcher : Nat) : Tended { language, launcher } where
  shut := by simp
  faulted := by simp
  armed := by simp
  freed := by simp
  told := by simp

variable {handle after : Handle} {desk desk' : Desk} {number : Nat}

/-! ## The relay -/

section Relay

theorem tended_returnRelay (handle : Handle) : handle.returnRelay.Tended where
  shut _ := rfl
  faulted _ _ := rfl
  armed relaying := by contradiction
  freed _ interpreter isInterpreter := by
    obtain ⟨before, -, rfl⟩ := Option.map_eq_some_iff.mp isInterpreter
    rfl
  told _ := .inl rfl

theorem tended_fault (handle : Handle) (reason : String) : (handle.fault reason).Tended :=
  tended_returnRelay _

/-- While the relay goes on, what is done with the line takes no reason to stop away and adds
no fault. -/
theorem Tended.relayLine (tended : handle.Tended) (relaying : handle.relay = .relaying)
    {line : Link Request Event} (interpreter : Link InterpreterRequest WorkerMessage)
    (contextOpen : line.contextOpen = handle.line.contextOpen)
    (faults : ∀ reason, .fault reason ∈ line.toHost → .fault reason ∈ handle.line.toHost)
    (stopped : handle.IsStopped → IsStopped { handle with line }) :
    Tended { handle with line, interpreter := some interpreter } where
  shut closed := tended.shut (contextOpen ▸ closed)
  faulted reason member := tended.faulted reason (faults reason member)
  armed _ := rfl
  freed returned := by
    rw [show handle.relay = .returned from returned] at relaying
    contradiction
  told dead := stopped (tended.told dead)

/-- A relay that takes a request other than to stop still has its reason to. -/
theorem IsStopped.take (stopped : handle.IsStopped) (relaying : handle.relay = .relaying)
    {request : Request} {rest : List Request} (queue : handle.line.toContext = request :: rest)
    (other : request ≠ .terminate) :
    IsStopped { handle with line := { handle.line with toContext := rest } } := by
  rcases stopped with returned | member | gone
  · rw [returned] at relaying
    contradiction
  · rw [queue] at member
    rcases List.mem_cons.mp member with same | member
    · exact absurd same.symm other
    · exact .inr (.inl member)
  · exact .inr (.inr gone)

theorem Tended.requested (tended : handle.Tended) (relaying : handle.relay = .relaying)
    (requested : handle.Requested after) : after.Tended := by
  cases requested with
  | stops same => exact tended_returnRelay _
  | forwards queue other at_ here =>
      exact tended.relayLine relaying _ rfl (fun _ => id)
        fun stopped => stopped.take relaying queue other
  | refused queue other at_ gone => exact tended_fault ..

theorem Tended.messaged (tended : handle.Tended) (relaying : handle.relay = .relaying)
    (messaged : handle.Messaged after) : after.Tended := by
  cases messaged with
  | exits at_ silent gone => exact tended_fault ..
  | passes at_ queue isOpen =>
      refine tended.relayLine relaying _ rfl (fun reason member => ?_) id
      rcases List.mem_append.mp member with old | new
      · exact old
      · cases List.mem_singleton.mp new
  | stops at_ closed => exact tended_returnRelay _

theorem Tended.launched (tended : handle.Tended) (launching : handle.relay = .launching)
    (outcome : Except TransportError Unit) : (handle.launched outcome).Tended := by
  have notOver : handle.relay ≠ .returned := by simp [launching]
  cases outcome with
  | ok launched =>
      exact {
        shut := fun closed => absurd (tended.shut closed) notOver
        faulted := fun reason member => absurd (tended.faulted reason member) notOver
        armed := fun _ => rfl
        freed := fun returned => by contradiction
        told := fun dead => .inr ((tended.told dead).resolve_left notOver) }
  | error cause => exact tended_fault ..

/-- The interpreter does something at its end of the link. -/
theorem Tended.act (tended : handle.Tended) (act : Link.Act WorkerMessage) :
    Tended { handle with interpreter := handle.interpreter.map (·.act act) } where
  shut := tended.shut
  faulted := tended.faulted
  armed relaying := by simpa using tended.armed relaying
  freed returned interpreter isInterpreter := by
    obtain ⟨before, isBefore, rfl⟩ := Option.map_eq_some_iff.mp isInterpreter
    rw [Link.hostOpen_act]
    exact tended.freed returned before isBefore
  told := tended.told

end Relay

/-! ## The handle -/

/-- What hosts do to a worker: the relay and its interpreter stay as they are, no reason to stop
is taken away, and a worker that is given up has a relay with such a reason. -/
structure Respects (before after : Handle) : Prop where
  relay : after.relay = before.relay
  interpreter : after.interpreter = before.interpreter
  contextOpen : after.line.contextOpen = before.line.contextOpen
  toHost : after.line.toHost <:+ before.line.toHost
  hostOpen : after.line.hostOpen = true → before.line.hostOpen = true
  stopped : before.IsStopped → after.IsStopped
  dead : after.alive = false → before.alive = false ∨ after.IsStopped

theorem Tended.respects (tended : handle.Tended) (respects : handle.Respects after) :
    after.Tended where
  shut closed := respects.relay ▸ tended.shut (respects.contextOpen ▸ closed)
  faulted reason member := respects.relay ▸ tended.faulted reason (respects.toHost.subset member)
  armed relaying := respects.interpreter ▸ tended.armed (respects.relay ▸ relaying)
  freed returned := respects.interpreter ▸ tended.freed (respects.relay ▸ returned)
  told dead := (respects.dead dead).elim (fun before => respects.stopped (tended.told before)) id

namespace Respects

variable {middle : Handle}

theorem refl (handle : Handle) : handle.Respects handle :=
  ⟨rfl, rfl, rfl, List.suffix_rfl, id, id, .inl⟩

theorem trans (left : handle.Respects middle) (right : middle.Respects after) :
    handle.Respects after where
  relay := right.relay.trans left.relay
  interpreter := right.interpreter.trans left.interpreter
  contextOpen := right.contextOpen.trans left.contextOpen
  toHost := right.toHost.trans left.toHost
  hostOpen isOpen := left.hostOpen (right.hostOpen isOpen)
  stopped stopped := right.stopped (left.stopped stopped)
  dead dead := (right.dead dead).elim
    (fun between => (left.dead between).imp_right right.stopped) .inr

/-- Where a run stands and who is in line for the lock are nothing to the relay. -/
theorem of_same (alive : after.alive = handle.alive) (line : after.line = handle.line)
    (relay : after.relay = handle.relay) (interpreter : after.interpreter = handle.interpreter) :
    handle.Respects after where
  relay := relay
  interpreter := interpreter
  contextOpen := by rw [line]
  toHost := line ▸ List.suffix_rfl
  hostOpen isOpen := line ▸ isOpen
  stopped stopped := by rwa [IsStopped, relay, line]
  dead dead := .inl (alive ▸ dead)

/-- A worker whose relay has a reason to stop is given up. -/
theorem markDead (stopped : handle.IsStopped) : handle.Respects handle.markDead :=
  ⟨rfl, rfl, rfl, List.suffix_rfl, id, id, fun _ => .inr stopped⟩

end Respects

section Host

/-- Events of the relay are taken or dropped. -/
theorem respects_hear (handle : Handle) {events : List Event}
    (fewer : events <:+ handle.line.toHost) :
    handle.Respects { handle with line := { handle.line with toHost := events } } :=
  ⟨rfl, rfl, rfl, fewer, id, id, .inl⟩

theorem respects_hostReceive {received : Received Event} {line : Link Request Event}
    (looked : handle.line.hostReceive = (received, line)) :
    handle.Respects { handle with line } := by
  simp only [Link.hostReceive] at looked
  split at looked
  · rename_i event rest queue
    cases looked
    exact handle.respects_hear (queue ▸ List.suffix_cons event rest)
  · cases looked
    exact .refl handle

theorem respects_request? {request : Request} (sent : handle.request? request = some after) :
    handle.Respects after := by
  simp only [request?, Link.hostSend?] at sent
  split at sent
  · cases sent
    exact ⟨rfl, rfl, rfl, List.suffix_rfl, id,
      Or.imp_right (Or.imp_left (List.mem_append_left _)), .inl⟩
  · contradiction

/-- A request that cannot be passed on finds the relay over. -/
theorem Tended.isStopped_of_refused (tended : handle.Tended) {request : Request}
    (refused : handle.request? request = none) : handle.IsStopped := by
  simp only [request?, Link.hostSend?] at refused
  split at refused
  · contradiction
  · rename_i closed
    exact .inl (tended.shut (by simpa using closed))

/-- A worker that is given up was asked to stop, or its relay is over. -/
theorem Tended.respects_terminate (tended : handle.Tended) : handle.Respects handle.terminate := by
  simp only [terminate]
  split
  · simp only [request?, Link.hostSend?]
    split
    · exact ⟨rfl, rfl, rfl, List.suffix_rfl, id, Or.imp_right (Or.imp_left (List.mem_append_left _)),
        fun _ => .inr (.inr (.inl (List.mem_append_right _ List.mem_cons_self)))⟩
    · rename_i closed
      exact .markDead (.inl (tended.shut (by simpa [markDead] using closed)))
  · exact .refl handle

/-- A worker that nobody has any more has a relay at the end of whose queue nobody is. -/
theorem Tended.respects_drop (tended : handle.Tended) : handle.Respects handle.drop :=
  tended.respects_terminate.trans
    ⟨rfl, rfl, rfl, List.nil_suffix, fun isOpen => by contradiction, fun _ => .inr (.inr rfl),
      fun _ => .inr (.inr (.inr rfl))⟩

theorem respects_turnReadiness {readiness : Readiness}
    (turned : handle.turnReadiness = some (after, readiness)) : handle.Respects after := by
  simp only [turnReadiness] at turned
  split at turned
  · contradiction
  · cases turned
    exact .refl handle
  all_goals
    rename_i received
    cases turned
    exact respects_hostReceive received

end Host

/-! ## Runs -/

section Runs

variable {receiver : String → Option Nat} {cancelled : Bool} {run : Run}

theorem respects_finish (handle : Handle) (number : Nat) (output : Aggregator) :
    handle.Respects (handle.finish number output) :=
  .of_same rfl rfl rfl rfl

theorem respects_setPhase (handle : Handle) (number : Nat) (phase : Phase) :
    handle.Respects (handle.setPhase number phase) :=
  .of_same rfl rfl rfl rfl

/-- A run ends because the worker is lost. -/
theorem respects_lost (stopped : handle.IsStopped) (number : Nat) (output : Aggregator) :
    handle.Respects (handle.markDead.finish number output) :=
  (Respects.markDead stopped).trans (respects_finish ..)

/-- A worker that cannot be given a run has a relay with a reason to stop. -/
theorem Tended.isStopped_of_lost (tended : handle.Tended) {request : Request}
    (lost : (if handle.isAlive then handle.request? request else none) = none) :
    handle.IsStopped := by
  split at lost
  · exact tended.isStopped_of_refused lost
  · rename_i dead
    simp only [isAlive, Link.isClosed, Bool.not_not, Bool.not_eq_true,
      Bool.and_eq_false_iff] at dead
    exact dead.elim tended.told fun closed => .inl (tended.shut closed)

theorem Tended.respects_turnQueued (tended : handle.Tended)
    (turned : turnQueued desk handle number run = some (desk', after)) : handle.Respects after := by
  have drained := handle.respects_hear List.nil_suffix
  simp only [turnQueued] at turned
  split at turned
  · contradiction
  · split at turned
    · rename_i next submitted
      cases turned
      split at submitted
      · exact (drained.trans (respects_request? submitted)).trans (respects_setPhase ..)
      · contradiction
    · rename_i lost
      cases turned
      exact drained.trans
        (respects_lost ((tended.respects drained).isStopped_of_lost lost) number _)

theorem Tended.respects_run (tended : handle.Tended) (desk : Desk) (broker : Nat) (code : String) :
    handle.Respects (handle.run desk broker code).2.1 := by
  have asked : handle.Respects { handle with
      runs := handle.runs ++ [{ code, broker }], lock := handle.lock.enter handle.runs.length } :=
    .of_same rfl rfl rfl rfl
  simp only [Handle.run]
  cases turned : turnQueued desk { handle with
      runs := handle.runs ++ [{ code, broker }], lock := handle.lock.enter handle.runs.length }
      handle.runs.length { code, broker } with
  | none => exact asked
  | some next => exact asked.trans ((tended.respects asked).respects_turnQueued turned)

/-- A run takes an event in; if that is a fault, the relay is over. -/
theorem respects_receive {event : Event}
    (faulted : ∀ reason, event = .fault reason → handle.relay = .returned)
    (receiver : String → Option Nat) (desk : Desk) (number broker : Nat) (output : Aggregator)
    (pending : List Nat) :
    handle.Respects (receive receiver desk handle number broker output pending event).2 := by
  cases event with
  | fault reason => exact respects_lost (.inl (faulted reason rfl)) number _
  | message content => cases content <;> exact .of_same rfl rfl rfl rfl

theorem Tended.respects_answer (tended : handle.Tended) {broker : Nat} {output : Aggregator}
    {pending : List Nat}
    (answered : answer desk handle number broker output pending = some (desk', after)) :
    handle.Respects after := by
  cases pending with
  | nil => contradiction
  | cons ticket rest =>
      simp only [answer] at answered
      obtain ⟨value, -, answered⟩ := Option.bind_eq_some_iff.mp answered
      split at answered
      · rename_i refused
        cases answered
        exact respects_lost (tended.isStopped_of_refused refused) number _
      · rename_i next sent
        cases answered
        exact (respects_request? sent).trans (respects_setPhase ..)

theorem Tended.respects_turnRunning (tended : handle.Tended) {broker : Nat} {output : Aggregator}
    {pending : List Nat}
    (turned : turnRunning receiver cancelled desk handle number broker output pending =
      some (desk', after)) : handle.Respects after := by
  simp only [turnRunning] at turned
  split at turned
  · cases turned
    exact tended.respects_terminate.trans (respects_finish ..)
  · split at turned
    · rename_i event line received
      have took := respects_hostReceive received
      have isAfter : _ = after := congrArg Prod.snd (Option.some.inj turned)
      rw [← isAfter]
      refine took.trans (respects_receive (fun reason fault => ?_) ..)
      subst fault
      simp only [Link.hostReceive] at received
      split at received
      · rename_i next rest queue
        cases received
        exact tended.faulted reason (queue ▸ List.mem_cons_self)
      · split at received <;> cases received
    · rename_i received
      cases turned
      refine respects_lost (.inl (tended.shut ?_)) number _
      simp only [Link.hostReceive] at received
      split at received
      · cases received
      · split at received
        · cases received
        · rename_i closed
          simpa using closed
    · exact tended.respects_answer turned

theorem Tended.respects_turn (tended : handle.Tended)
    (turned : handle.turn receiver cancelled desk number = some (desk', after)) :
    handle.Respects after := by
  simp only [Handle.turn] at turned
  obtain ⟨run, -, turned⟩ := Option.bind_eq_some_iff.mp turned
  split at turned
  · exact tended.respects_turnQueued turned
  · exact tended.respects_turnRunning turned
  · contradiction
  · contradiction

theorem respects_abandon (handle : Handle) (desk : Desk) (number : Nat) :
    handle.Respects (handle.abandon desk number).2 := by
  simp only [Handle.abandon]
  split
  · exact .refl handle
  · split <;> exact .of_same rfl rfl rfl rfl

end Runs

/-! ## Moves -/

section Moves

/-- What hosts do to a worker lets the relay be. -/
theorem Tended.respects_move (tended : handle.Tended) {move : Move} (isHosts : move.IsHosts) :
    handle.Respects (handle.move move) := by
  cases move with
  | run desk broker code => exact tended.respects_run desk broker code
  | turn receiver cancelled desk run =>
      cases turned : handle.turn receiver cancelled desk run with
      | none => simpa [Handle.move, turned] using Respects.refl handle
      | some next => simpa [Handle.move, turned] using tended.respects_turn turned
  | abandon desk run => exact respects_abandon ..
  | terminate => exact tended.respects_terminate
  | drop => exact tended.respects_drop
  | _ => contradiction

theorem Tended.move (tended : handle.Tended) (move : Move) : (handle.move move).Tended := by
  cases move with
  | launched outcome =>
      simp only [Handle.move]
      split
      · rename_i launching
        exact tended.launched launching outcome
      · exact tended
  | request => exact holds_request tended fun _ relaying => tended.requested relaying
  | message => exact holds_message tended fun _ relaying => tended.messaged relaying
  | interpreter act => exact tended.act act
  | _ => exact tended.respects (tended.respects_move trivial)

theorem Tended.moved (tended : handle.Tended) (moves : List Move) : (handle.moved moves).Tended := by
  induction moves generalizing handle with
  | nil => exact tended
  | cons move moves ih => exact ih (tended.move move)

/-- A relay with a reason to stop never waits for requests. -/
theorem Tended.turnRequest_of_stopped (tended : handle.Tended) (stopped : handle.IsStopped)
    (relaying : handle.relay = .relaying) : ∃ after, handle.turnRequest = some after := by
  obtain ⟨interpreter, at_⟩ := Option.isSome_iff_exists.mp (tended.armed relaying)
  cases queue : handle.line.toContext with
  | cons request rest =>
      cases request <;>
        simp [Handle.turnRequest, relaying, at_, Link.contextReceive, queue]
  | nil =>
      have gone : handle.line.hostOpen = false := by simpa [IsStopped, relaying, queue] using stopped
      simp [Handle.turnRequest, relaying, at_, Link.contextReceive, queue, gone]

theorem relay_requests_of_returned (returned : handle.relay = .returned) (times : Nat) :
    (handle.moved (List.replicate times .request)).relay = .returned := by
  have unmoved : handle.move .request = handle := by
    simp [Handle.move, Handle.turnRequest, returned]
  induction times with
  | zero => exact returned
  | succ times ih => rwa [List.replicate_succ, moved_cons, unmoved]

/-- A relay with a reason to stop comes across it once it has taken the requests that are
queued. -/
theorem Tended.relay_requests (tended : handle.Tended) (stopped : handle.IsStopped)
    (launched : handle.relay ≠ .launching) :
    (handle.moved (List.replicate (handle.line.toContext.length + 1) .request)).relay =
      .returned := by
  generalize queued : handle.line.toContext.length = length
  induction length generalizing handle with
  | zero =>
      cases relay : handle.relay with
      | launching => contradiction
      | returned => exact relay_requests_of_returned relay _
      | relaying =>
          obtain ⟨after, turned⟩ := tended.turnRequest_of_stopped stopped relay
          rw [List.length_eq_zero_iff] at queued
          cases (requested_of_turnRequest turned).2 with
          | stops same => simp [Handle.move, turned, returnRelay]
          | forwards queue other at_ here => simp [queue] at queued
          | refused queue other at_ gone => simp [queue] at queued
  | succ length ih =>
      cases relay : handle.relay with
      | launching => contradiction
      | returned => exact relay_requests_of_returned relay _
      | relaying =>
          obtain ⟨after, turned⟩ := tended.turnRequest_of_stopped stopped relay
          have moved : handle.move .request = after := by simp [Handle.move, turned]
          rw [List.replicate_succ, moved_cons, moved]
          obtain ⟨relaying, requested⟩ := requested_of_turnRequest turned
          have stillTended := tended.requested relaying requested
          cases requested with
          | stops same => exact relay_requests_of_returned rfl _
          | forwards queue other at_ here =>
              refine ih stillTended (stopped.take relay queue other) launched ?_
              simpa [queue] using queued
          | refused queue other at_ gone => exact relay_requests_of_returned rfl _

end Moves

end Handle

/-! ## Every worker of a registry -/

/-- A property that new workers have and that no worker loses. -/
structure Handle.IsLasting (holds : Handle → Prop) : Prop where
  fresh : ∀ language launcher, holds { language, launcher }
  move : ∀ handle move, holds handle → holds (handle.move move)
  readiness : ∀ (handle after : Handle) (readiness : Handle.Readiness), holds handle →
    handle.turnReadiness = some (after, readiness) → holds after

namespace Registry

/-- Every worker of a registry has a property. -/
def AllHandles (registry : Registry) (holds : Handle → Prop) : Prop :=
  ∀ (number : Nat) (handle : Handle), registry.handles[number]? = some handle → holds handle

variable {holds : Handle → Prop} {registry after : Registry} {number : Nat}

theorem AllHandles.of_handles (all : registry.AllHandles holds)
    (handles : after.handles = registry.handles) : after.AllHandles holds := by
  intro number handle found
  rw [handles] at found
  exact all number handle found

theorem AllHandles.modifyHandle (all : registry.AllHandles holds) {change : Handle → Handle}
    (keeps : ∀ handle, registry.handles[number]? = some handle → holds (change handle)) :
    (registry.modifyHandle number change).AllHandles holds := by
  intro other handle found
  rw [handles_modifyHandle] at found
  split at found
  · rename_i same
    obtain ⟨before, wasThere, rfl⟩ := Option.map_eq_some_iff.mp found
    exact keeps before (same ▸ wasThere)
  · exact all other handle found

section Lasting

variable (lasting : Handle.IsLasting holds)
include lasting

theorem AllHandles.move (all : registry.AllHandles holds) (number : Nat) (move : Handle.Move) :
    (registry.modifyHandle number (·.move move)).AllHandles holds :=
  all.modifyHandle fun handle found => lasting.move handle move (all number handle found)

theorem AllHandles.failStart (all : registry.AllHandles holds) (number handle : Nat)
    (cause : WorkerError) : (registry.failStart number handle cause).AllHandles holds :=
  (all.move lasting handle .drop).of_handles rfl

theorem AllHandles.expire (all : registry.AllHandles holds) (number : Nat) :
    (registry.expire number).AllHandles holds := by
  simp only [Registry.expire]
  split
  · exact all
  · split
    · exact all.failStart lasting _ _ _
    · exact all
    · exact all

theorem AllHandles.turnStart (all : registry.AllHandles holds)
    (turned : registry.turnStart number = some after) : after.AllHandles holds := by
  simp only [Registry.turnStart] at turned
  obtain ⟨start, -, turned⟩ := Option.bind_eq_some_iff.mp turned
  split at turned
  · cases turned
    intro other handle found
    rcases getElem?_concat found with wasThere | rfl
    · exact all other handle wasThere
    · exact lasting.fresh start.language start.launcher
  · rename_i handle progress
    obtain ⟨⟨worker, readiness⟩, ready, turned⟩ := Option.bind_eq_some_iff.mp turned
    obtain ⟨waited, isWaited, ready⟩ := Option.bind_eq_some_iff.mp ready
    have heard : (registry.modifyHandle handle fun _ => worker).AllHandles holds :=
      all.modifyHandle fun _ _ =>
        lasting.readiness waited worker readiness (all handle waited isWaited) ready
    cases readiness with
    | ready =>
        cases turned
        exact heard.of_handles rfl
    | ignored =>
        cases turned
        exact heard
    | failed cause =>
        cases turned
        exact heard.failStart lasting _ _ _
  · contradiction

theorem AllHandles.stop (all : registry.AllHandles holds) (slot : Slot) :
    (registry.stop slot).AllHandles holds := by
  cases slot with
  | ready handle => exact all.move lasting handle .terminate
  | starting start => exact all
  | failed cause => exact all

theorem AllHandles.shutdown (all : registry.AllHandles holds) (language : String) :
    (registry.shutdown language).1.AllHandles holds := by
  simp only [Registry.shutdown]
  split
  · exact all
  · have forgotten : (registry.forget language).AllHandles holds := all.of_handles rfl
    exact forgotten.stop lasting _

theorem AllHandles.shutdownAll (all : registry.AllHandles holds) :
    registry.shutdownAll.AllHandles holds :=
  registry.shutdownAll_induction (motive := (·.AllHandles holds)) (all.of_handles rfl)
    fun _ slot all => all.stop lasting slot

end Lasting

end Registry

namespace Lobby

variable {holds : Handle → Prop} {lobby : Lobby}

theorem allHandles_step (lasting : Handle.IsLasting holds)
    (all : lobby.registry.AllHandles holds) (act : Act) :
    (lobby.step act).registry.AllHandles holds := by
  cases act with
  | acquire language launcher timeout =>
      exact all.of_handles (Registry.handles_acquire ..)
  | poll number =>
      simp only [step]
      rcases lobby.poll_cases number with same | ⟨language, start, -, ⟨-, same⟩ | settled⟩
      · rwa [same]
      · rw [same]
        cases turned : lobby.registry.turnStart start with
        | none => exact all
        | some after => exact all.turnStart lasting turned
      · obtain ⟨outcome, -, same⟩ := settled
        rw [same]
        exact all.of_handles (Registry.handles_collect ..)
  | leave number =>
      rw [step, registry_leave]
      exact all
  | expire number => exact all.expire lasting number
  | shutdown language => exact all.shutdown lasting language
  | shutdownAll => exact all.shutdownAll lasting
  | move handle move => exact all.move lasting handle move

/-- What lasts holds of every worker that a registry ever started. -/
theorem allHandles_run (lasting : Handle.IsLasting holds) (acts : List Act) :
    (run {} acts).registry.AllHandles holds := by
  have kept (lobby : Lobby) (all : lobby.registry.AllHandles holds) :
      (lobby.run acts).registry.AllHandles holds := by
    induction acts generalizing lobby with
    | nil => exact all
    | cons act acts ih => exact ih (lobby.step act) (allHandles_step lasting all act)
  exact kept {} fun number handle found => by simp at found

/-- Whatever happened to a worker, in whichever order its start, its runs, its interpreter and
whoever gives it up or drops it came: it is never alive again once it is not, and while it is not
alive its relay is over, or is asked to stop, or nobody is at the other end of its queue.  A relay
that is over has let its interpreter go, and one that has been launched is over as soon as it has
taken the requests in its queue. -/
theorem dismissed_workers_stop (acts : List Act) {number : Nat} {handle : Handle}
    (found : (run {} acts).registry.handles[number]? = some handle) :
    (handle.alive = false →
      handle.relay = .returned ∨ .terminate ∈ handle.line.toContext ∨
        handle.line.hostOpen = false) ∧
    (handle.relay = .returned → ∀ interpreter, handle.interpreter = some interpreter →
      interpreter.hostOpen = false) ∧
    (handle.alive = false → handle.relay ≠ .launching →
      (handle.moved (List.replicate (handle.line.toContext.length + 1) .request)).relay =
        .returned) ∧
    ∀ (more : List Act) (next : Handle),
      (run {} (acts ++ more)).registry.handles[number]? = some next →
      next.alive = true → handle.alive = true := by
  have lasting : Handle.IsLasting Handle.Tended :=
    { fresh := Handle.tended_fresh
      move := fun _ move tended => tended.move move
      readiness := fun _ _ _ tended turned =>
        tended.respects (Handle.respects_turnReadiness turned) }
  have tended := allHandles_run lasting acts number handle found
  refine ⟨tended.told, tended.freed, fun dead => tended.relay_requests (tended.told dead),
    fun more next isNext alive => ?_⟩
  have succeeds := (run {} acts).succeeds_run more
  rw [← run_append] at succeeds
  obtain ⟨later, isLater, wanes⟩ := succeeds.handles number handle found
  rw [isNext] at isLater
  cases isLater
  exact wanes.alive alive

/-- A worker that takes too long to become ready is dropped, and its relay stops at the first
request it takes. -/
theorem dismissed_after_timeout :
    ∃ handle, (run {} [.acquire "python" 0 ⟨30, 0⟩, .poll 0, .move 0 (.launched (.ok ())),
        .expire 0]).registry.handles[0]? = some handle ∧
      handle.alive = false ∧ handle.relay = .relaying ∧ handle.line.toContext = [.terminate] ∧
      (handle.moved [.request, .request]).relay = .returned := by
  have timedOut : (run {} [.acquire "python" 0 ⟨30, 0⟩, .poll 0, .move 0 (.launched (.ok ())),
      .expire 0]).registry.handles[0]? = some
        { language := "python", launcher := 0, relay := .relaying, interpreter := some {},
          alive := false, line := { toContext := [.terminate], hostOpen := false } } := rfl
  obtain ⟨-, -, stops, -⟩ := dismissed_workers_stop _ timedOut
  exact ⟨_, timedOut, rfl, rfl, rfl, stops rfl (by simp)⟩

end Lobby

end Polyglot.Worker
