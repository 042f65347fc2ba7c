import Polyglot.Proofs.Channel.Strand
import Polyglot.Proofs.Worker.Submission

/-!
# What interpreters say

What an interpreter says passes the relay before it reaches the handle.  The strand of
a worker is the line to the relay together with the link to the interpreter, and what
the relay does is a drift of the strand.
-/

namespace Polyglot

/-- What a message says of the run that it was sent for. -/
def WorkerMessage.utterance : WorkerMessage → Utterance
  | .ready => .aside
  | .stdout data => .output (.stdout, data)
  | .stderr data => .output (.stderr, data)
  | .inputRequest _ => .request
  | .done => .ending none
  | .error data => .ending (some (.stderr, data))

/-- Whether a request is a run. -/
def InterpreterRequest.isRun : InterpreterRequest → Bool
  | .run _ _ _ => true
  | .inputResponse _ => false

namespace Worker

/-- The message that an event passes on. -/
def Event.message? : Event → Option WorkerMessage
  | .message content => some content
  | .fault _ => none

namespace Handle

/-- What the host has not taken in, asides apart. -/
def voiceOf (messages : List WorkerMessage) : List Utterance :=
  (messages.map WorkerMessage.utterance).filter (!·.isAside)

/-- The messages on the line to the host. -/
def messages (handle : Handle) : List WorkerMessage :=
  handle.line.toHost.filterMap Event.message?

/-- The messages that the relay has not passed on. -/
def unrelayed (handle : Handle) : List WorkerMessage :=
  if handle.line.hostOpen then handle.interpreter.elim [] (·.toHost) else []

/-- The runs that the relay has passed on and the interpreter has not received. -/
def forwarded (handle : Handle) : Nat :=
  handle.interpreter.elim 0 (·.toContext.countP InterpreterRequest.isRun)

/-- Whether what the interpreter says can still reach the host. -/
def isAttached (handle : Handle) : Bool :=
  handle.line.hostOpen &&
    (handle.relay = .launching || handle.interpreter.any (·.hostOpen))

/-- What lies between the host and the interpreter. -/
def strand (handle : Handle) : Strand where
  queued := handle.codes.length + handle.forwarded
  voice := voiceOf (handle.messages ++ handle.unrelayed)
  attached := handle.isAttached

theorem voiceOf_append (first second : List WorkerMessage) :
    voiceOf (first ++ second) = voiceOf first ++ voiceOf second := by
  simp [voiceOf]

theorem voiceOf_prefix {first second : List WorkerMessage} (shorter : first <+: second) :
    voiceOf first <+: voiceOf second :=
  (shorter.map _).filter _

/-- A strand reads nothing but the queues and who is still there. -/
theorem strand_congr {before after : Handle} (codes : after.codes = before.codes)
    (messages : after.messages = before.messages)
    (hostOpen : after.line.hostOpen = before.line.hostOpen)
    (interpreter : after.interpreter = before.interpreter)
    (relay : after.relay = before.relay) : after.strand = before.strand := by
  simp only [strand, codes, messages, forwarded, unrelayed, isAttached, hostOpen, interpreter,
    relay]

@[simp] theorem strand_markDead (handle : Handle) : handle.markDead.strand = handle.strand := rfl

/-- A request that is not a run leaves the strand as it is. -/
theorem strand_request? {handle after : Handle} {request : Request}
    (noRun : request.code? = none) (sent : handle.request? request = some after) :
    after.strand = handle.strand := by
  have codes := codes_request? sent
  simp only [noRun, Option.toList_none, List.append_nil] at codes
  simp only [request?] at sent
  obtain ⟨line, accepted, sent⟩ := Option.bind_eq_some_iff.mp sent
  cases sent
  simp only [Link.hostSend?] at accepted
  split at accepted
  · cases accepted
    exact strand_congr codes rfl rfl rfl rfl
  · contradiction

@[simp] theorem strand_terminate (handle : Handle) : handle.terminate.strand = handle.strand := by
  simp only [terminate]
  split
  · cases sent : handle.markDead.request? .terminate with
    | none => rfl
    | some after =>
        rw [Option.getD_some, strand_request? rfl sent, strand_markDead]
  · rfl

/-! ## What the relay does -/

section Relay

variable {handle after : Handle}

/-- The relay is over, and what it has not passed on is lost. -/
theorem fades_returnRelay (handle : Handle) : handle.strand.Fades handle.returnRelay.strand where
  queued := by
    have dropped : handle.returnRelay.codes = [] := by simp [codes, returnRelay, Link.dropContext]
    have forwarded : handle.returnRelay.forwarded = handle.forwarded := by
      cases interpreter : handle.interpreter <;>
        simp [Handle.forwarded, returnRelay, interpreter, Link.dropHost]
    simp only [strand, dropped, forwarded]
    exact Nat.add_le_add_right (Nat.zero_le _) _
  voice := by
    have unrelayed : handle.returnRelay.unrelayed = [] := by
      cases interpreter : handle.interpreter <;>
        simp [Handle.unrelayed, returnRelay, interpreter, Link.dropHost]
    have messages : handle.returnRelay.messages = handle.messages := rfl
    simp only [strand, unrelayed, messages, List.append_nil]
    exact voiceOf_prefix (List.prefix_append _ _)
  attached reaches := by
    have detached : handle.returnRelay.strand.attached = false := by
      cases interpreter : handle.interpreter <;>
        simp [strand, isAttached, returnRelay, interpreter, Link.dropHost]
    rw [detached] at reaches
    contradiction

theorem fades_fault (handle : Handle) (reason : String) :
    handle.strand.Fades (handle.fault reason).strand := by
  have told : strand { handle with
      line := (handle.line.contextSend? (.fault reason)).getD handle.line } = handle.strand := by
    simp only [Link.contextSend?]
    split
    · exact strand_congr rfl (by simp [messages, Event.message?]) rfl rfl rfl
    · rfl
  have returned := fades_returnRelay { handle with
    line := (handle.line.contextSend? (.fault reason)).getD handle.line }
  rw [told] at returned
  exact returned

/-- The launch of an interpreter has an outcome. -/
theorem fades_launched (launching : handle.relay = .launching) (bare : handle.interpreter = none)
    (outcome : Except TransportError Unit) :
    handle.strand.Fades (handle.launched outcome).strand := by
  cases outcome with
  | ok =>
      have unrelayed : unrelayed { handle with relay := .relaying, interpreter := some {} } =
          handle.unrelayed := by
        simp [Handle.unrelayed, bare]
      have same : (handle.launched (.ok ())).strand = handle.strand := by
        simp only [launched, strand, unrelayed]
        simp [codes, messages, forwarded, isAttached, bare, launching]
      exact same ▸ .refl _
  | error cause => exact fades_fault handle cause.message

/-- The relay passes a run, or an answer, on to the interpreter. -/
theorem fades_forward (before : Strand) (handle : Handle)
    {interpreter : Link InterpreterRequest WorkerMessage}
    (at_ : handle.interpreter = some interpreter) (request : InterpreterRequest)
    (queued : handle.strand.queued + (if request.isRun then 1 else 0) ≤ before.queued)
    (voice : handle.strand.voice = before.voice)
    (attached : handle.strand.attached = before.attached) :
    before.Fades (handle.forward interpreter request).strand := by
  simp only [forward, Link.hostSend?]
  split
  · rename_i next sent
    split at sent
    · cases sent
      refine ⟨?_, ?_, ?_⟩
      · simp only [strand, codes, forwarded, at_, Option.elim_some, List.countP_append,
          List.countP_singleton] at queued ⊢
        omega
      · rw [← voice]
        simp [strand, messages, unrelayed, at_]
      · intro reaches
        rw [← voice, ← attached]
        refine ⟨?_, by simp [strand, messages, unrelayed, at_]⟩
        simpa [strand, isAttached, at_] using reaches
    · contradiction
  · have here : before.Fades handle.strand := by
      refine ⟨Nat.le_trans (Nat.le_add_right _ _) queued, voice ▸ List.prefix_rfl, ?_⟩
      intro reaches
      exact ⟨attached ▸ reaches, voice⟩
    exact here.trans (fades_fault handle _)

/-- A request that the relay takes is on its way no more. -/
theorem queued_cons {request : Request} {rest : List Request}
    (queue : handle.line.toContext = request :: rest) :
    (strand { handle with line := { handle.line with toContext := rest } }).queued +
      request.code?.toList.length = handle.strand.queued := by
  have codes : handle.codes = request.code?.toList ++
      Handle.codes { handle with line := { handle.line with toContext := rest } } := by
    rw [Handle.codes, queue, List.filterMap_cons]
    cases request <;> rfl
  simp only [strand, codes, List.length_append, forwarded]
  omega

/-- The relay takes the next request of the handle. -/
theorem fades_turnRequest (turned : handle.turnRequest = some after) :
    handle.strand.Fades after.strand := by
  simp only [turnRequest] at turned
  split at turned
  · contradiction
  · obtain ⟨interpreter, at_, turned⟩ := Option.bind_eq_some_iff.mp turned
    split at turned
    · contradiction
    · cases turned
      exact fades_returnRelay handle
    · rename_i request line received
      obtain ⟨rest, queue, rfl⟩ := Link.contextReceive_message received
      have voice : (strand { handle with line := { handle.line with toContext := rest } }).voice =
          handle.strand.voice := rfl
      have queued := queued_cons queue
      cases request with
      | run code =>
          cases turned
          have isRun : (Scan.prepareRun code).isRun = true := by
            simp only [Scan.prepareRun]
            split <;> rfl
          refine fades_forward handle.strand
            { handle with line := { handle.line with toContext := rest } } at_ _ ?_ voice rfl
          rw [if_pos isRun]
          exact Nat.le_of_eq queued
      | inputResponse value =>
          cases turned
          exact fades_forward handle.strand
            { handle with line := { handle.line with toContext := rest } } at_ _
            (Nat.le_of_eq queued) voice rfl
      | terminate =>
          cases turned
          refine Strand.Fades.trans ?_ (fades_returnRelay _)
          exact ⟨Nat.le_of_eq queued, voice ▸ List.prefix_rfl, fun reaches => ⟨reaches, voice⟩⟩

/-- The relay takes the next message of the interpreter. -/
theorem fades_turnMessage (turned : handle.turnMessage = some after) :
    handle.strand.Fades after.strand := by
  simp only [turnMessage] at turned
  split at turned
  · contradiction
  · obtain ⟨interpreter, at_, turned⟩ := Option.bind_eq_some_iff.mp turned
    split at turned
    · contradiction
    · cases turned
      exact fades_fault handle _
    · rename_i content next received
      obtain ⟨rest, queue, rfl⟩ := Link.hostReceive_message received
      have queued : (strand { handle with
          interpreter := some { interpreter with toHost := rest } }).queued =
          handle.strand.queued := by simp [strand, codes, forwarded, at_]
      cases hostOpen : handle.line.hostOpen with
      | true =>
          simp only [Link.contextSend?, hostOpen, if_true] at turned
          cases turned
          have voice : (handle.messages ++ [content]) ++ rest =
              handle.messages ++ interpreter.toHost := by
            rw [queue, List.append_assoc]
            rfl
          refine ⟨Nat.le_of_eq queued, ?_, ?_⟩
          · simp only [strand, messages, unrelayed, hostOpen, at_, if_true, Option.elim_some,
              List.filterMap_append] at voice ⊢
            exact congrArg voiceOf voice ▸ List.prefix_rfl
          · intro reaches
            refine ⟨by simpa [strand, isAttached, at_, hostOpen] using reaches, ?_⟩
            simp only [strand, messages, unrelayed, hostOpen, at_, if_true, Option.elim_some,
              List.filterMap_append] at voice ⊢
            exact congrArg voiceOf voice
      | false =>
          simp only [Link.contextSend?, hostOpen, Bool.false_eq_true, if_false] at turned
          cases turned
          refine Strand.Fades.trans ⟨Nat.le_of_eq queued, ?_, ?_⟩ (fades_returnRelay _)
          · simp [strand, messages, unrelayed, hostOpen]
          · simp [strand, isAttached, hostOpen]

/-- Nobody has the worker any more. -/
theorem fades_drop (handle : Handle) : handle.strand.Fades handle.drop.strand where
  queued := by
    have queued := congrArg Strand.queued handle.strand_terminate
    exact Nat.le_of_eq queued
  voice := by
    simp [strand, messages, unrelayed, drop, Link.dropHost, voiceOf]
  attached reaches := by
    simp [strand, isAttached, drop, Link.dropHost] at reaches

end Relay

/-! ## What the interpreter does -/

section Interpreter

variable {handle : Handle} {account : Account}
  {interpreter : Link InterpreterRequest WorkerMessage}

/-- A worker with another link to its interpreter. -/
def withInterpreter (handle : Handle) (interpreter : Link InterpreterRequest WorkerMessage) :
    Handle :=
  { handle with interpreter := some interpreter }

/-- What the strand becomes when the host's side of the link is left alone. -/
theorem strand_withInterpreter (at_ : handle.interpreter = some interpreter)
    {after : Link InterpreterRequest WorkerMessage}
    (hostOpen : after.hostOpen = interpreter.hostOpen) :
    (handle.withInterpreter after).strand =
      { queued := handle.codes.length + after.toContext.countP InterpreterRequest.isRun
        voice := voiceOf (handle.messages ++ if handle.line.hostOpen then after.toHost else [])
        attached := handle.strand.attached } := by
  have attached : (handle.withInterpreter after).isAttached = handle.isAttached := by
    simp only [isAttached, withInterpreter, at_, Option.any_some, hostOpen]
    rfl
  simp only [strand, attached]
  rfl

theorem queued_strand (at_ : handle.interpreter = some interpreter) :
    handle.strand.queued =
      handle.codes.length + interpreter.toContext.countP InterpreterRequest.isRun := by
  simp [strand, forwarded, at_]

theorem voice_strand (at_ : handle.interpreter = some interpreter) :
    handle.strand.voice =
      voiceOf (handle.messages ++ if handle.line.hostOpen then interpreter.toHost else []) := by
  simp [strand, unrelayed, at_]

/-- The interpreter says something. -/
theorem drift_say (at_ : handle.interpreter = some interpreter)
    (launched : handle.relay ≠ .launching) (here : interpreter.contextOpen = true)
    {message : WorkerMessage} (permitted : account.permits message.utterance = true) :
    handle.strand.Drift account (handle.withInterpreter (interpreter.act (.say message))).strand
      (account.say message.utterance) := by
  have after := strand_withInterpreter at_ (interpreter.hostOpen_act (.say message))
  have attached : handle.strand.attached = (handle.line.hostOpen && interpreter.hostOpen) := by
    simp [strand, isAttached, at_, launched]
  refine .say permitted ?_ ?_ ?_
  · rw [after, queued_strand at_]
    simp only [Link.act, here, if_true, Link.contextSend?]
    split <;> rfl
  · rw [after, voice_strand at_, attached]
    simp only [Link.act, here, if_true, Link.contextSend?]
    cases handle.line.hostOpen with
    | false => simp
    | true =>
        cases interpreter.hostOpen with
        | false => simp
        | true =>
            simp only [if_true, Option.getD_some, ← List.append_assoc, Bool.true_and]
            rw [voiceOf_append]
            congr 1
            cases aside : message.utterance.isAside <;> simp [voiceOf, aside]
  · rw [after]

/-- The interpreter takes the next request in. -/
theorem drift_listen (at_ : handle.interpreter = some interpreter) :
    handle.strand.Drift account (handle.withInterpreter (interpreter.act .listen)).strand
      (if interpreter.toContext.head?.any InterpreterRequest.isRun then account.take
        else account) := by
  have after := strand_withInterpreter at_ (interpreter.hostOpen_act .listen)
  have voice : (handle.withInterpreter (interpreter.act .listen)).strand.voice =
      handle.strand.voice := by
    rw [after, voice_strand at_]
    simp only [Link.toHost_listen]
  have attached : (handle.withInterpreter (interpreter.act .listen)).strand.attached =
      handle.strand.attached := by
    rw [after]
  have queued : (handle.withInterpreter (interpreter.act .listen)).strand.queued +
      (if interpreter.toContext.head?.any InterpreterRequest.isRun then 1 else 0) =
        handle.strand.queued := by
    rw [after, queued_strand at_, Link.toContext_listen]
    cases interpreter.toContext with
    | nil => rfl
    | cons request rest =>
        rw [List.tail_cons, List.countP_cons, List.head?_cons, Option.any_some, Nat.add_assoc]
  exact .listen queued voice attached account

/-- The interpreter goes away. -/
theorem fades_leave (at_ : handle.interpreter = some interpreter) :
    handle.strand.Fades (handle.withInterpreter (interpreter.act .leave)).strand := by
  have after := strand_withInterpreter at_ (interpreter.hostOpen_act .leave)
  refine ⟨?_, ?_, ?_⟩
  · rw [after, queued_strand at_]
    exact Nat.add_le_add_left (Nat.zero_le _) _
  · rw [after, voice_strand at_]
    exact List.prefix_rfl
  · intro reaches
    rw [after] at reaches ⊢
    exact ⟨reaches, (voice_strand at_).symm⟩

/-- An interpreter that handles its runs in order does something. -/
theorem drift_act (bare : handle.relay = .launching → handle.interpreter = none)
    (at_ : handle.interpreter = some interpreter) {act : Link.Act WorkerMessage}
    (allowed : account.allows WorkerMessage.utterance interpreter act = true) :
    handle.strand.Drift account (handle.withInterpreter (interpreter.act act)).strand
      (account.act InterpreterRequest.isRun WorkerMessage.utterance interpreter act) := by
  have launched : handle.relay ≠ .launching := by
    intro launching
    rw [bare launching] at at_
    contradiction
  cases act with
  | say message =>
      cases here : interpreter.contextOpen with
      | false =>
          have same : handle.withInterpreter (interpreter.act (.say message)) = handle := by
            simp [withInterpreter, Link.act, here, ← at_]
          simp only [same, Account.act, here, Bool.false_eq_true, if_false]
          exact .refl _ _
      | true =>
          simp only [Account.act, here, if_true]
          exact drift_say at_ launched here (by simpa [Account.allows, here] using allowed)
  | listen => exact drift_listen at_
  | leave => exact .fade (fades_leave at_)

end Interpreter

end Handle

end Worker

end Polyglot
