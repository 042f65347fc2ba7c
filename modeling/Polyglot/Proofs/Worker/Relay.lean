import Polyglot.Proofs.Channel.Attribution
import Polyglot.Proofs.Worker.Speech

/-!
# Workers whose runs stand still

Relays and interpreters move while no run of a worker takes a turn, and a worker is
given up.  All that changes then is the strand of the worker, and it drifts.
-/

namespace Polyglot.Worker.Handle

/-- A worker whose relay gives no reasons but its own, and that has no interpreter before
one was launched. -/
structure Candid (failures : List TransportError) (handle : Handle) : Prop where
  bare : handle.relay = .launching → handle.interpreter = none
  faults : ∀ reason, Event.fault reason ∈ handle.line.toHost → IsReason failures reason

section Candid

variable {handle after : Handle} {failures more : List TransportError} {reason : String}

theorem candid_fresh (failures : List TransportError) (language : String) (launcher : Nat) :
    Candid failures { language, launcher } :=
  ⟨fun _ => rfl, fun _ member => absurd member List.not_mem_nil⟩

theorem Candid.mono (candid : handle.Candid failures) (subset : failures ⊆ more) :
    handle.Candid more :=
  ⟨candid.bare, fun reason member => (candid.faults reason member).mono subset⟩

/-- A worker stays candid while nothing is added to what the relay has said. -/
theorem Candid.of_subset (candid : handle.Candid failures)
    (bare : after.relay = .launching → after.interpreter = none)
    (subset : after.line.toHost ⊆ handle.line.toHost) : after.Candid failures :=
  ⟨bare, fun reason member => candid.faults reason (subset member)⟩

theorem Candid.returnRelay (candid : handle.Candid failures) :
    handle.returnRelay.Candid failures :=
  candid.of_subset (fun launching => by contradiction) fun _ member => member

theorem Candid.fault (candid : handle.Candid failures) (isReason : IsReason failures reason) :
    (handle.fault reason).Candid failures := by
  refine ⟨fun launching => by contradiction, ?_⟩
  intro other member
  simp only [Handle.fault, Handle.returnRelay, Link.dropContext, Link.contextSend?] at member
  split at member
  · rcases List.mem_append.mp member with old | new
    · exact candid.faults other old
    · cases List.mem_singleton.mp new
      exact isReason
  · exact candid.faults other member

theorem Candid.forward (candid : handle.Candid failures) (launched : handle.relay ≠ .launching)
    (interpreter : Link InterpreterRequest WorkerMessage) (request : InterpreterRequest) :
    (handle.forward interpreter request).Candid failures := by
  simp only [Handle.forward]
  split
  · exact candid.of_subset (fun launching => absurd launching launched) fun _ member => member
  · exact candid.fault .deaf

theorem Candid.terminate (candid : handle.Candid failures) :
    handle.terminate.Candid failures := by
  simp only [Handle.terminate, request?, Link.hostSend?]
  split
  · split <;> exact candid.of_subset candid.bare fun _ member => member
  · exact candid

end Candid

/-- What can happen to a worker and the account of its interpreter while the runs of the
worker stand still. -/
structure Drifts (failures : List TransportError) (before : Handle) (account : Account)
    (after : Handle) (account' : Account) : Prop where
  language : after.language = before.language
  runs : after.runs = before.runs
  alive : after.alive = true → before.alive = true
  drift : before.strand.Drift account after.strand account'
  candid : before.Candid failures → after.Candid failures

section Drifts

variable {handle after : Handle} {failures : List TransportError} {account : Account}

theorem Drifts.refl (failures : List TransportError) (handle : Handle) (account : Account) :
    Drifts failures handle account handle account :=
  ⟨rfl, rfl, id, .refl _ _, id⟩

/-- What a worker looks like to its hosts when its relay has moved. -/
structure Faces (before after : Handle) : Prop where
  language : after.language = before.language
  runs : after.runs = before.runs
  alive : after.alive = before.alive

theorem faces_forward (handle : Handle) (interpreter : Link InterpreterRequest WorkerMessage)
    (request : InterpreterRequest) : handle.Faces (handle.forward interpreter request) := by
  simp only [forward]
  split <;> exact ⟨rfl, rfl, rfl⟩

/-- The launch of an interpreter that was waited for has an outcome. -/
theorem drifts_launched (candid : handle.Candid failures) (launching : handle.relay = .launching)
    {outcome : Except TransportError Unit}
    (failed : ∀ cause, outcome = .error cause → cause ∈ failures) :
    Drifts failures handle account (handle.launched outcome) account where
  language := by cases outcome <;> rfl
  runs := by cases outcome <;> rfl
  alive := by cases outcome <;> exact id
  drift := .fade (fades_launched launching (candid.bare launching) outcome)
  candid _ := by
    cases outcome with
    | ok => exact candid.of_subset (fun launching => by contradiction) fun _ member => member
    | error cause => exact candid.fault (.launch (failed cause rfl))

theorem drifts_turnRequest (turned : handle.turnRequest = some after) :
    Drifts failures handle account after account := by
  have drift : handle.strand.Drift account after.strand account := .fade (fades_turnRequest turned)
  simp only [turnRequest] at turned
  split at turned
  · contradiction
  · rename_i relaying
    have launched : handle.relay ≠ .launching := by
      intro launching
      rw [launching] at relaying
      exact relaying (by decide)
    obtain ⟨interpreter, at_, turned⟩ := Option.bind_eq_some_iff.mp turned
    split at turned
    · contradiction
    · cases turned
      exact ⟨rfl, rfl, id, drift, Candid.returnRelay⟩
    · rename_i request line received
      obtain ⟨rest, queue, rfl⟩ := Link.contextReceive_message received
      have taken (candid : handle.Candid failures) :
          Candid failures { handle with line := { handle.line with toContext := rest } } :=
        candid.of_subset candid.bare fun _ member => member
      cases request with
      | run code =>
          cases turned
          have faces := faces_forward { handle with line := { handle.line with toContext := rest } }
            interpreter (Scan.prepareRun code)
          exact ⟨faces.language, faces.runs, fun alive => faces.alive ▸ alive, drift,
            fun candid => (taken candid).forward launched _ _⟩
      | inputResponse value =>
          cases turned
          have faces := faces_forward { handle with line := { handle.line with toContext := rest } }
            interpreter (.inputResponse value)
          exact ⟨faces.language, faces.runs, fun alive => faces.alive ▸ alive, drift,
            fun candid => (taken candid).forward launched _ _⟩
      | terminate =>
          cases turned
          exact ⟨rfl, rfl, id, drift, fun candid => (taken candid).returnRelay⟩

theorem drifts_turnMessage (turned : handle.turnMessage = some after) :
    Drifts failures handle account after account := by
  have drift : handle.strand.Drift account after.strand account := .fade (fades_turnMessage turned)
  simp only [turnMessage] at turned
  split at turned
  · contradiction
  · rename_i relaying
    have launched : handle.relay ≠ .launching := by
      intro launching
      rw [launching] at relaying
      exact relaying (by decide)
    obtain ⟨interpreter, at_, turned⟩ := Option.bind_eq_some_iff.mp turned
    split at turned
    · contradiction
    · cases turned
      exact ⟨rfl, rfl, id, drift, fun candid => candid.fault .interpreterExited⟩
    · rename_i content next received
      have bare : handle.relay = .launching → some next = none :=
        fun launching => absurd launching launched
      split at turned
      · rename_i line sent
        cases turned
        refine ⟨rfl, rfl, id, drift, fun candid => ⟨bare, ?_⟩⟩
        intro reason member
        simp only [Link.contextSend?] at sent
        split at sent
        · cases sent
          rcases List.mem_append.mp member with old | new
          · exact candid.faults reason old
          · cases List.mem_singleton.mp new
        · contradiction
      · cases turned
        refine ⟨rfl, rfl, id, drift, fun candid => Candid.returnRelay ?_⟩
        exact candid.of_subset bare fun _ member => member

theorem alive_terminate (handle : Handle) : handle.terminate.alive = false := by
  simp only [terminate, request?, Link.hostSend?]
  split
  · split <;> rfl
  · rename_i dead
    exact Bool.eq_false_iff.mpr dead

/-- A worker that is given up. -/
theorem drifts_terminate (failures : List TransportError) (handle : Handle) (account : Account) :
    Drifts failures handle account handle.terminate account where
  language := by
    simp only [terminate, request?, Link.hostSend?]
    split
    · split <;> rfl
    · rfl
  runs := by
    simp only [terminate, request?, Link.hostSend?]
    split
    · split <;> rfl
    · rfl
  alive isAlive := by
    rw [alive_terminate] at isAlive
    contradiction
  drift := .fade (handle.strand_terminate ▸ .refl _)
  candid := Candid.terminate

/-- A worker that nobody has any more. -/
theorem drifts_drop (failures : List TransportError) (handle : Handle) (account : Account) :
    Drifts failures handle account handle.drop account where
  language := (drifts_terminate failures handle account).language
  runs := (drifts_terminate failures handle account).runs
  alive := (drifts_terminate failures handle account).alive
  drift := .fade (fades_drop handle)
  candid candid := candid.terminate.of_subset candid.terminate.bare
    fun _ member => absurd member List.not_mem_nil

/-- An interpreter that handles its runs in order does something. -/
theorem drifts_act (candid : handle.Candid failures)
    {interpreter : Link InterpreterRequest WorkerMessage}
    (at_ : handle.interpreter = some interpreter) {act : Link.Act WorkerMessage}
    (allowed : account.allows WorkerMessage.utterance interpreter act = true) :
    Drifts failures handle account (handle.withInterpreter (interpreter.act act))
      (account.act InterpreterRequest.isRun WorkerMessage.utterance interpreter act) where
  language := rfl
  runs := rfl
  alive := id
  drift := drift_act candid.bare at_ allowed
  candid _ := candid.of_subset
    (fun launching => by rw [candid.bare launching] at at_; contradiction) fun _ member => member

end Drifts

end Polyglot.Worker.Handle
