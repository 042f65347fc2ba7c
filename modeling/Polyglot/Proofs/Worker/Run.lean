import Polyglot.Proofs.Worker.Relay

/-!
# Runs of a worker

A run is submitted to a worker that is quiet, and from then on the worker is busy with
it.  What the run takes in until it is over was said for it, and the worker is quiet
again then, or was given up.
-/

namespace Polyglot.Worker.Handle

/-- A worker that can be given work is quiet. -/
def Rests (handle : Handle) (account : Account) : Prop :=
  handle.alive = true → handle.strand.Quiet account

/-- What holds of somebody's run that stands there. -/
def Stands (failures : List TransportError) (handle : Handle) (account : Account) (owner : Nat)
    (code : String) : Phase → Prop
  | .queued => handle.Rests account
  | .running output _ =>
    ∃ heard, handle.strand.Busy account owner code heard ∧ output = Aggregator.gather heard
  | .finished result => handle.Rests account ∧ account.Yields failures owner code result
  | .abandoned => True

/-- A worker that has a run of somebody's code. -/
structure Serves (failures : List TransportError) (handle : Handle) (account : Account)
    (number owner : Nat) (code : String) : Prop where
  candid : handle.Candid failures
  stands : ∃ run, handle.runs[number]? = some run ∧ run.code = code ∧
    handle.Stands failures account owner code run.phase

variable {handle after : Handle} {account account' : Account}
  {failures more : List TransportError} {number owner broker : Nat} {code : String}

theorem Rests.drifts (rests : handle.Rests account)
    (drifts : handle.Drifts failures account after account') : after.Rests account' :=
  fun alive => (rests (drifts.alive alive)).drift drifts.drift

theorem Stands.drifts {phase : Phase} (stands : handle.Stands failures account owner code phase)
    (drifts : handle.Drifts failures account after account') :
    after.Stands failures account' owner code phase := by
  cases phase with
  | queued => exact Rests.drifts stands drifts
  | running output pending =>
      obtain ⟨heard, busy, collected⟩ := stands
      exact ⟨heard, busy.drift drifts.drift, collected⟩
  | finished result =>
      obtain ⟨rests, yields⟩ := stands
      exact ⟨rests.drifts drifts, yields.mono drifts.drift.extends (List.Subset.refl failures)⟩
  | abandoned => trivial

/-- Whatever else happens to a worker, a run of it stays somebody's. -/
theorem Serves.drifts (serves : handle.Serves failures account number owner code)
    (drifts : handle.Drifts failures account after account') :
    after.Serves failures account' number owner code := by
  obtain ⟨candid, run, found, isCode, stands⟩ := serves
  exact ⟨drifts.candid candid, run, drifts.runs ▸ found, isCode, stands.drifts drifts⟩

theorem Serves.mono (serves : handle.Serves failures account number owner code)
    (subset : failures ⊆ more) : handle.Serves more account number owner code := by
  obtain ⟨candid, run, found, isCode, stands⟩ := serves
  refine ⟨candid.mono subset, run, found, isCode, ?_⟩
  cases phase : run.phase with
  | finished result =>
      rw [phase] at stands
      exact ⟨stands.1, stands.2.mono (.refl account) subset⟩
  | _ =>
      rw [phase] at stands
      exact stands

/-! ## The end of a run -/

section Finish

variable {run : Run} {heard : List Chunk} {reason : String}

theorem serves_setPhase (handle : Handle) (candid : handle.Candid failures)
    (found : handle.runs[number]? = some run) (isCode : run.code = code) {phase : Phase}
    (stands : handle.Stands failures account owner code phase) :
    (handle.setPhase number phase).Serves failures account number owner code := by
  refine ⟨⟨candid.bare, candid.faults⟩, { run with phase }, ?_, isCode, ?_⟩
  · simp [setPhase, found]
  · cases phase <;> exact stands

theorem stands_finished (rests : handle.Rests account) {result : RunResult}
    (yields : account.Yields failures owner code result) :
    handle.Stands failures account owner code (.finished result) :=
  ⟨rests, yields⟩

theorem stands_running (busy : handle.strand.Busy account owner code heard)
    (failures : List TransportError) (pending : List Nat) :
    handle.Stands failures account owner code (.running (Aggregator.gather heard) pending) :=
  ⟨heard, busy, rfl⟩

theorem serves_finish (handle : Handle) (candid : handle.Candid failures)
    (found : handle.runs[number]? = some run) (isCode : run.code = code)
    (rests : handle.Rests account) {output : Aggregator}
    (yields : account.Yields failures owner code output.finish) :
    (handle.finish number output).Serves failures account number owner code := by
  obtain ⟨⟨bare, faults⟩, stands⟩ :=
    handle.serves_setPhase candid found isCode (stands_finished rests yields)
  exact ⟨⟨bare, faults⟩, stands⟩

/-- A worker that is lost during a run is given up. -/
theorem serves_crash (handle : Handle) (candid : handle.Candid failures)
    (found : handle.runs[number]? = some run) (isCode : run.code = code)
    (busy : handle.strand.Busy account owner code heard) (isReason : IsReason failures reason)
    (desk : Desk) (broker : Nat) :
    (crash desk handle number broker (Aggregator.gather heard) reason).2.Serves failures account
      number owner code := by
  have dead : handle.markDead.Candid failures :=
    candid.of_subset candid.bare fun _ member => member
  have rests : handle.markDead.Rests account := fun alive => by contradiction
  have yields := busy.owns.yields_notice (IsNotice.crashed isReason)
  exact handle.markDead.serves_finish dead found isCode rests yields

end Finish

/-! ## The turns of a run -/

section Turns

variable {run : Run} {desk desk' : Desk} {receiver : String → Option Nat} {heard : List Chunk}

/-- A request to the relay changes nothing that hosts see. -/
theorem frame_request? {request : Request} (sent : handle.request? request = some after) :
    after.runs = handle.runs ∧ (handle.Candid failures → after.Candid failures) := by
  simp only [request?, Link.hostSend?] at sent
  obtain ⟨line, accepted, sent⟩ := Option.bind_eq_some_iff.mp sent
  split at accepted
  · cases accepted
    cases sent
    exact ⟨rfl, fun candid => ⟨candid.bare, candid.faults⟩⟩
  · contradiction

/-- The strand once what was left of earlier runs is dropped and code is submitted. -/
theorem busy_submit (quiet : handle.strand.Quiet account) (owner : Nat)
    (sent : request? { handle with line := handle.line.drain } (.run code) = some after) :
    after.strand.Busy (account.post owner [code]) owner code [] := by
  have codes := codes_request? sent
  simp only [request?] at sent
  obtain ⟨line, accepted, sent⟩ := Option.bind_eq_some_iff.mp sent
  cases sent
  simp only [Link.hostSend?] at accepted
  split at accepted
  · cases accepted
    refine quiet.post owner code ?_ ?_
    · simp only [strand, codes, List.length_append]
      simp only [Request.code?, Option.toList_some, List.length_singleton, Handle.codes, Link.drain,
        forwarded]
      omega
    · have silent : voiceOf (handle.messages ++ handle.unrelayed) = [] := quiet.silent
      rw [voiceOf_append] at silent
      exact (List.append_eq_nil_iff.mp silent).2
  · contradiction

/-- A run gets the lock: it submits its code, or it is over. -/
theorem serves_turnQueued (candid : handle.Candid failures)
    (found : handle.runs[number]? = some run) (rests : handle.Rests account) (owner : Nat)
    (turned : turnQueued desk handle number run = some (desk', after)) :
    ∃ codes, after.codes = handle.codes ++ codes ∧
      after.Serves failures (account.post owner codes) number owner run.code := by
  refine ⟨_, codes_turnQueued turned, ?_⟩
  have drained : isAlive { handle with line := handle.line.drain } = handle.isAlive := rfl
  have calm : Candid failures { handle with line := handle.line.drain } :=
    candid.of_subset candid.bare fun _ member => absurd member List.not_mem_nil
  simp only [turnQueued, drained] at turned
  split at turned
  · contradiction
  · cases isAlive : handle.isAlive with
    | false =>
        simp only [isAlive, Bool.false_eq_true, if_false] at turned ⊢
        cases turned
        rw [Account.post_nil]
        have dead : Candid failures (markDead { handle with line := handle.line.drain }) :=
          ⟨calm.bare, calm.faults⟩
        have rests : Rests (markDead { handle with line := handle.line.drain }) account :=
          fun alive => by contradiction
        have yields := account.yields_unrun owner run.code (isNotice_notRunning failures)
        exact serves_finish _ dead found rfl rests yields
    | true =>
        have alive : handle.alive = true := (Bool.and_eq_true _ _ ▸ isAlive).1
        have isOpen : handle.line.contextOpen = true := by
          simpa [Handle.isAlive, alive, Link.isClosed] using isAlive
        simp only [isAlive, if_true] at turned ⊢
        cases sent : request? { handle with line := handle.line.drain } (.run run.code) with
        | none => simp [request?, Link.hostSend?, Link.drain, isOpen] at sent
        | some next =>
            simp only [sent] at turned
            cases turned
            obtain ⟨sameRuns, stays⟩ := frame_request? sent
            have stands := stands_running (busy_submit (rests alive) owner sent) failures []
            exact next.serves_setPhase (stays calm) (by rw [sameRuns, found]) rfl stands

/-- Somebody's code becomes a run on a worker. -/
theorem serves_run (candid : handle.Candid failures) (rests : handle.Rests account)
    (desk : Desk) (broker owner : Nat) (code : String) :
    ∃ codes, (handle.run desk broker code).2.1.codes = handle.codes ++ codes ∧
      (handle.run desk broker code).2.1.Serves failures (account.post owner codes)
        handle.runs.length owner code := by
  have asks : Candid failures { handle with
      runs := handle.runs ++ [{ code, broker }], lock := handle.lock.enter handle.runs.length } :=
    candid.of_subset candid.bare fun _ member => member
  have found : (handle.runs ++ [({ code, broker } : Run)])[handle.runs.length]? =
      some { code, broker } := List.getElem?_concat_length
  simp only [run]
  cases turned : turnQueued desk { handle with
      runs := handle.runs ++ [{ code, broker }], lock := handle.lock.enter handle.runs.length }
      handle.runs.length { code, broker } with
  | none =>
      refine ⟨[], (List.append_nil _).symm, ?_⟩
      rw [Account.post_nil]
      exact ⟨asks, _, found, rfl, rests⟩
  | some next => exact serves_turnQueued asks found rests owner turned

/-- What is said first of a run is not on its way any more once it is taken in. -/
theorem strand_take {event : Event} {rest : List Event}
    (queue : handle.line.toHost = event :: rest) :
    handle.strand = { strand { handle with line := { handle.line with toHost := rest } } with
      voice := voiceOf event.message?.toList ++
        (strand { handle with line := { handle.line with toHost := rest } }).voice } := by
  have messages : handle.messages = event.message?.toList ++
      Handle.messages { handle with line := { handle.line with toHost := rest } } := by
    rw [Handle.messages, queue, List.filterMap_cons]
    cases event <;> rfl
  simp only [strand, messages, List.append_assoc, voiceOf_append]
  rfl

/-- A run takes in what was said first. -/
theorem serves_receive {event : Event} (handle : Handle) (candid : handle.Candid failures)
    (found : handle.runs[number]? = some run) (isCode : run.code = code) {before : Strand}
    (busy : before.Busy account owner code heard)
    (took : before = { handle.strand with
      voice := voiceOf event.message?.toList ++ handle.strand.voice })
    (isReason : ∀ reason, event = .fault reason → IsReason failures reason)
    (receiver : String → Option Nat) (desk : Desk) (broker : Nat) {pending : List Nat}
    (stands : run.phase = .running (Aggregator.gather heard) pending) :
    (receive receiver desk handle number broker (Aggregator.gather heard) pending
      event).2.Serves failures account number owner code := by
  have taken : { before with voice := handle.strand.voice } = handle.strand := by rw [took]
  have output (chunk : Chunk) (voice : before.voice = .output chunk :: handle.strand.voice) :
      handle.strand.Busy account owner code (heard ++ [chunk]) := by
    have hears := busy.hear voice rfl
    rw [taken] at hears
    exact hears
  cases event with
  | fault reason =>
      have same : before = handle.strand := took
      exact handle.serves_crash candid found isCode (same ▸ busy) (isReason reason rfl) desk broker
  | message content =>
      have voice : before.voice = voiceOf [content] ++ handle.strand.voice := by rw [took]; rfl
      cases content with
      | ready =>
          have same : before = handle.strand := took
          refine ⟨candid, run, found, isCode, ?_⟩
          rw [stands]
          exact stands_running (same ▸ busy) failures pending
      | stdout data =>
          have hears := stands_running (output (.stdout, data) voice) failures pending
          rw [Aggregator.gather_concat] at hears
          exact handle.serves_setPhase candid found isCode hears
      | stderr data =>
          have hears := stands_running (output (.stderr, data) voice) failures pending
          rw [Aggregator.gather_concat] at hears
          exact handle.serves_setPhase candid found isCode hears
      | inputRequest prompt =>
          have asks : before.voice = .request :: handle.strand.voice := voice
          have hears := busy.hear asks rfl
          simp only [taken, Utterance.chunks, List.append_nil] at hears
          exact handle.serves_setPhase candid found isCode (stands_running hears failures
            (pending ++ [(desk.request receiver broker prompt).2]))
      | done =>
          obtain ⟨quiet, owns⟩ := busy.conclude voice
          rw [Option.toList_none, List.append_nil] at owns
          have rests : handle.Rests account := fun _ => taken ▸ quiet
          exact handle.serves_finish candid found isCode rests (owns.yields failures)
      | error data =>
          obtain ⟨quiet, owns⟩ := busy.conclude voice
          have yields := owns.yields failures
          rw [Option.toList_some, Aggregator.gather_concat] at yields
          have rests : handle.Rests account := fun _ => taken ▸ quiet
          exact handle.serves_finish candid found isCode rests yields

/-- A run that is submitted takes a turn. -/
theorem serves_turnRunning (candid : handle.Candid failures)
    (found : handle.runs[number]? = some run) (isCode : run.code = code)
    (busy : handle.strand.Busy account owner code heard) {cancelled : Bool} {pending : List Nat}
    (stands : run.phase = .running (Aggregator.gather heard) pending)
    (turned : turnRunning receiver cancelled desk handle number broker (Aggregator.gather heard)
      pending = some (desk', after)) : after.Serves failures account number owner code := by
  simp only [turnRunning] at turned
  split at turned
  · cases turned
    have rests : handle.terminate.Rests account := by
      intro alive
      rw [alive_terminate] at alive
      contradiction
    have same := (drifts_terminate failures handle account).runs
    exact handle.terminate.serves_finish candid.terminate (by rw [same, found]) isCode rests
      (busy.owns.yields failures)
  · split at turned
    · rename_i event line received
      obtain ⟨rest, queue, rfl⟩ := Link.hostReceive_message received
      have fewer : rest ⊆ handle.line.toHost := by
        rw [queue]
        exact List.subset_cons_self event rest
      have calm : Candid failures { handle with line := { handle.line with toHost := rest } } :=
        candid.of_subset candid.bare fewer
      have isReason (reason : String) (isFault : event = .fault reason) :
          IsReason failures reason :=
        candid.faults reason (by rw [queue, isFault]; exact List.mem_cons_self)
      have receives := serves_receive _ calm found isCode busy (strand_take queue) isReason receiver
        desk broker stands
      rw [Option.some.inj turned] at receives
      exact receives
    · have crashes := handle.serves_crash candid found isCode busy .threadExited desk broker
      rw [Option.some.inj turned] at crashes
      exact crashes
    · cases pending with
      | nil => simp [answer] at turned
      | cons ticket rest =>
          simp only [answer] at turned
          obtain ⟨value, -, turned⟩ := Option.bind_eq_some_iff.mp turned
          split at turned
          · have crashes := handle.serves_crash candid found isCode busy .threadExited
              (desk.modify broker (·.take ticket)) broker
            rw [Option.some.inj turned] at crashes
            exact crashes
          · rename_i answered sent
            cases turned
            obtain ⟨sameRuns, stays⟩ := frame_request? sent
            have same := strand_request? rfl sent
            exact answered.serves_setPhase (stays candid) (by rw [sameRuns, found]) isCode
              (stands_running (same ▸ busy) failures rest)

/-- A run takes a turn, and submits nothing but its own code. -/
theorem Serves.turn (serves : handle.Serves failures account number owner code)
    {cancelled : Bool} (turned : handle.turn receiver cancelled desk number = some (desk', after)) :
    ∃ codes, after.codes = handle.codes ++ codes ∧
      after.Serves failures (account.post owner codes) number owner code := by
  obtain ⟨candid, ⟨code, broker, phase⟩, found, rfl, stands⟩ := serves
  have codes := codes_turn turned
  simp only [Handle.turn, found, Option.bind_eq_bind, Option.bind_some] at turned
  cases phase with
  | queued => exact serves_turnQueued candid found stands owner turned
  | running output pending =>
      obtain ⟨heard, busy, rfl⟩ := stands
      refine ⟨[], by simpa [next?, found] using codes, ?_⟩
      rw [Account.post_nil]
      exact serves_turnRunning candid found rfl busy rfl turned
  | finished result => contradiction
  | abandoned => contradiction

end Turns

/-! ## The language of a worker -/

section Language

variable {desk desk' : Desk} {run : Run} {receiver : String → Option Nat}

theorem language_request? {request : Request} (sent : handle.request? request = some after) :
    after.language = handle.language := by
  simp only [request?] at sent
  obtain ⟨line, -, sent⟩ := Option.bind_eq_some_iff.mp sent
  cases sent
  rfl

theorem language_turnQueued (turned : turnQueued desk handle number run = some (desk', after)) :
    after.language = handle.language := by
  simp only [turnQueued] at turned
  split at turned
  · contradiction
  · split at turned
    · rename_i next submitted
      cases turned
      split at submitted
      · have same := language_request? submitted
        exact same
      · contradiction
    · cases turned
      rfl

theorem language_run (handle : Handle) (desk : Desk) (broker : Nat) (code : String) :
    (handle.run desk broker code).2.1.language = handle.language := by
  simp only [Handle.run]
  cases turned : turnQueued desk { handle with
      runs := handle.runs ++ [{ code, broker }], lock := handle.lock.enter handle.runs.length }
      handle.runs.length { code, broker } with
  | none => rfl
  | some next =>
      have same := language_turnQueued turned
      exact same

theorem language_turn {cancelled : Bool}
    (turned : handle.turn receiver cancelled desk number = some (desk', after)) :
    after.language = handle.language := by
  simp only [Handle.turn] at turned
  obtain ⟨⟨code, broker, phase⟩, found, turned⟩ := Option.bind_eq_some_iff.mp turned
  cases phase with
  | queued => exact language_turnQueued turned
  | running output pending =>
      simp only [turnRunning] at turned
      split at turned
      · cases turned
        exact (drifts_terminate [] handle {}).language
      · split at turned
        · rename_i event line received
          have took := congrArg (fun turn => turn.2.language) (Option.some.inj turned)
          refine took.symm.trans ?_
          rcases event with message | reason
          · cases message <;> rfl
          · rfl
        · cases turned
          rfl
        · cases pending with
          | nil => simp [answer] at turned
          | cons ticket rest =>
              simp only [answer] at turned
              obtain ⟨value, -, turned⟩ := Option.bind_eq_some_iff.mp turned
              split at turned
              · cases turned
                rfl
              · rename_i answered sent
                cases turned
                have same := language_request? sent
                exact same
  | finished result => contradiction
  | abandoned => contradiction

theorem language_abandon (handle : Handle) (desk : Desk) (number : Nat) :
    (handle.abandon desk number).2.language = handle.language := by
  simp only [Handle.abandon]
  split
  · rfl
  · split <;> rfl

end Language

/-- What is said before a worker is ready is dropped, and a worker that does not become
ready fails for a reason of its relay's. -/
theorem rests_turnReadiness (candid : handle.Candid failures) {readiness : Readiness}
    (turned : handle.turnReadiness = some (after, readiness)) :
    after.language = handle.language ∧ after.Candid failures ∧
      (handle.Rests account → after.Rests account) ∧
      ∀ cause, readiness = .failed cause → cause.IsOwn failures := by
  have took {event : Event} {rest : List Event} (queue : handle.line.toHost = event :: rest) :
      Candid failures { handle with line := { handle.line with toHost := rest } } ∧
        (handle.Rests account →
          Rests { handle with line := { handle.line with toHost := rest } } account) := by
    constructor
    · refine candid.of_subset candid.bare ?_
      rw [queue]
      exact List.subset_cons_self event rest
    · intro rests alive
      have quiet := rests alive
      rw [strand_take queue] at quiet
      exact ⟨quiet.balances, quiet.rested, (List.append_eq_nil_iff.mp quiet.silent).2⟩
  simp only [turnReadiness] at turned
  split at turned
  · contradiction
  · cases turned
    refine ⟨rfl, candid, id, ?_⟩
    intro cause failed
    cases failed
    exact IsReason.threadExited
  · rename_i reason line received
    obtain ⟨rest, queue, rfl⟩ := Link.hostReceive_message received
    cases turned
    refine ⟨rfl, (took queue).1, (took queue).2, ?_⟩
    intro cause failed
    cases failed
    exact candid.faults reason (by rw [queue]; exact List.mem_cons_self)
  · rename_i line received
    obtain ⟨rest, queue, rfl⟩ := Link.hostReceive_message received
    cases turned
    exact ⟨rfl, (took queue).1, (took queue).2, fun cause failed => by contradiction⟩
  · rename_i content line _ received
    obtain ⟨rest, queue, rfl⟩ := Link.hostReceive_message received
    cases turned
    exact ⟨rfl, (took queue).1, (took queue).2, fun cause failed => by contradiction⟩

/-- The caller of a run goes away. -/
theorem serves_abandon (serves : handle.Serves failures account number owner code) (desk : Desk) :
    (handle.abandon desk number).2.Serves failures account number owner code := by
  obtain ⟨candid, run, found, isCode, stands⟩ := serves
  have leaves := handle.serves_setPhase candid found isCode
    (show handle.Stands failures account owner code .abandoned from trivial)
  simp only [abandon, found]
  cases phase : run.phase with
  | queued => exact ⟨⟨leaves.candid.bare, leaves.candid.faults⟩, leaves.stands⟩
  | running output pending => exact ⟨⟨leaves.candid.bare, leaves.candid.faults⟩, leaves.stands⟩
  | finished result => exact ⟨candid, run, found, isCode, stands⟩
  | abandoned => exact ⟨candid, run, found, isCode, stands⟩

end Polyglot.Worker.Handle
