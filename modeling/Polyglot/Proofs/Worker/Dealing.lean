import Polyglot.Proofs.Input.Exchange
import Polyglot.Proofs.Worker.Deeds

/-!
# What a run on a worker does with its broker

Whatever a run does in a turn, it deals with its broker in one of a few ways: it leaves it
alone, clears it before its code runs or when it is over, asks, or passes on the answer to
the oldest of its requests.  Nothing else that happens to a worker sends an answer.
-/

namespace Polyglot

/-- The answer that a request to an interpreter carries. -/
def InterpreterRequest.response? : InterpreterRequest → Option String
  | .inputResponse value => some value
  | .run _ _ _ => none

namespace Worker

/-- The answer that a request to the relay carries. -/
def Request.response? : Request → Option String
  | .inputResponse value => some value
  | .run _ | .terminate => none

/-- What a run holds of its broker that stands there. -/
def Phase.holding : Phase → Holding
  | .queued => .before
  | .running _ pending => .during pending
  | .finished _ | .abandoned => .ended

/-- Whether a run that stands there is not over. -/
def Phase.goesOn : Phase → Bool
  | .queued | .running _ _ => true
  | .finished _ | .abandoned => false

namespace Handle

/-- The answers on the line to the relay. -/
def answers (handle : Handle) : List String :=
  handle.line.toContext.filterMap Request.response?

/-- The answers that were put on the line between two states. -/
def responses (before after : Handle) : List String :=
  (after.line.toContext.drop before.line.toContext.length).filterMap Request.response?

/-- The host's half puts those answers on the line, and does nothing to the relay. -/
structure Posts (before after : Handle) (values : List String) : Prop where
  line : ∃ more, after.line.toContext = before.line.toContext ++ more ∧
    more.filterMap Request.response? = values
  contextOpen : after.line.contextOpen = before.line.contextOpen
  lost : before.line.contextOpen = false → values = []
  relay : after.relay = before.relay
  interpreter : after.interpreter = before.interpreter

/-- What a run does before it goes on or ends. -/
structure Readies (before after : Handle) : Prop where
  runs : after.runs = before.runs
  posts : before.Posts after []

/-- What a run does in a turn, as far as its broker is concerned. -/
structure Dealt (receiver : String → Option Nat) (withdrawn : Bool) (desk : Desk)
    (before : Handle) (number : Nat) (run : Run) (desk' : Desk) (after : Handle) (next : Phase)
    (values : List String) : Prop where
  runs : after.runs = (before.setPhase number next).runs
  posts : before.Posts after values
  deals : desk.Deals receiver run.broker withdrawn run.phase.holding desk' next.holding values

variable {handle ready after : Handle} {desk desk' : Desk} {number : Nat} {run : Run}
  {next : Phase} {values : List String}

/-! ## The line to the relay -/

section Posts

theorem Posts.responses (posts : handle.Posts after values) : handle.responses after = values := by
  obtain ⟨more, grown, isValues⟩ := posts.line
  rw [Handle.responses, grown, List.drop_left, isValues]

theorem Posts.answers (posts : handle.Posts after values) :
    after.answers = handle.answers ++ values := by
  obtain ⟨more, grown, isValues⟩ := posts.line
  rw [Handle.answers, grown, List.filterMap_append, isValues, Handle.answers]

theorem Posts.trans {more : List String} (left : handle.Posts ready values)
    (right : ready.Posts after more) : handle.Posts after (values ++ more) where
  line := by
    obtain ⟨first, isFirst, isValues⟩ := left.line
    obtain ⟨second, isSecond, isMore⟩ := right.line
    exact ⟨first ++ second, by rw [isSecond, isFirst, List.append_assoc],
      by rw [List.filterMap_append, isValues, isMore]⟩
  contextOpen := right.contextOpen.trans left.contextOpen
  lost closed := by rw [left.lost closed, right.lost (left.contextOpen.trans closed)]; rfl
  relay := right.relay.trans left.relay
  interpreter := right.interpreter.trans left.interpreter

/-- Nothing is put on the line. -/
theorem posts_nil (toContext : after.line.toContext = handle.line.toContext)
    (contextOpen : after.line.contextOpen = handle.line.contextOpen)
    (relay : after.relay = handle.relay) (interpreter : after.interpreter = handle.interpreter) :
    handle.Posts after [] :=
  ⟨⟨[], by rw [toContext, List.append_nil], rfl⟩, contextOpen, fun _ => rfl, relay, interpreter⟩

theorem posts_request? {request : Request} (sent : handle.request? request = some after) :
    handle.Posts after request.response?.toList := by
  simp only [request?, Link.hostSend?] at sent
  obtain ⟨line, accepted, sent⟩ := Option.bind_eq_some_iff.mp sent
  split at accepted
  · rename_i isOpen
    cases accepted
    cases sent
    refine ⟨⟨[request], rfl, ?_⟩, rfl, fun closed => ?_, rfl, rfl⟩
    · cases request <;> rfl
    · rw [isOpen] at closed
      contradiction
  · contradiction

theorem posts_terminate (handle : Handle) : handle.Posts handle.terminate [] := by
  have dead : handle.Posts handle.markDead [] := posts_nil rfl rfl rfl rfl
  simp only [terminate]
  split
  · cases sent : handle.markDead.request? .terminate with
    | none => exact dead
    | some after => exact dead.trans (posts_request? sent)
  · exact posts_nil rfl rfl rfl rfl

theorem posts_drop (handle : Handle) : handle.Posts handle.drop [] :=
  handle.posts_terminate.trans (posts_nil rfl rfl rfl rfl)

theorem Readies.refl (handle : Handle) : handle.Readies handle :=
  ⟨rfl, posts_nil rfl rfl rfl rfl⟩

theorem Readies.trans (left : handle.Readies ready) (right : ready.Readies after) :
    handle.Readies after :=
  ⟨right.runs.trans left.runs, left.posts.trans right.posts⟩

theorem readies_terminate (handle : Handle) : handle.Readies handle.terminate :=
  ⟨handle.alike_terminate.runs, handle.posts_terminate⟩

theorem readies_markDead (handle : Handle) : handle.Readies handle.markDead :=
  ⟨rfl, posts_nil rfl rfl rfl rfl⟩

theorem readies_drain (handle : Handle) :
    handle.Readies { handle with line := handle.line.drain } :=
  ⟨rfl, posts_nil rfl rfl rfl rfl⟩

/-- Setting a run to where it stands changes nothing. -/
theorem setPhase_same (found : handle.runs[number]? = some run) :
    handle.setPhase number run.phase = handle := by
  have same : handle.runs.modify number (fun old => { old with phase := run.phase }) =
      handle.runs := by
    apply List.ext_getElem?
    intro other
    rw [List.getElem?_modify]
    by_cases own : number = other
    · subst own
      simp [found]
    · simp [own]
  rw [setPhase, same]

end Posts

/-! ## Turns -/

section Dealt

variable (receiver : String → Option Nat) (withdrawn : Bool)

/-- A run goes on after it has dealt with its broker. -/
theorem Readies.dealt_setPhase (readies : handle.Readies ready) {values : List String}
    (posts : ready.Posts after values) (runs : after.runs = (ready.setPhase number next).runs)
    (deals : desk.Deals receiver run.broker withdrawn run.phase.holding desk' next.holding
      values) :
    handle.Dealt receiver withdrawn desk number run desk' after next values where
  runs := by rw [runs, setPhase, setPhase, readies.runs]
  posts := readies.posts.trans posts
  deals := deals

/-- A run ends and closes what is left open at its broker. -/
theorem Readies.dealt_finish (readies : handle.Readies ready) (output : Aggregator)
    {change : Broker → Broker} (closing : Broker.Closing change) :
    handle.Dealt receiver withdrawn desk number run (desk.modify run.broker change)
      (ready.finish number output) (.finished output.finish) [] :=
  readies.dealt_setPhase receiver withdrawn (posts_nil rfl rfl rfl rfl) rfl (.stop _ closing)

theorem dealt_turnQueued (queued : run.phase = .queued)
    (turned : turnQueued desk handle number run = some (desk', after)) :
    ∃ next values, handle.Dealt receiver withdrawn desk number run desk' after next values := by
  simp only [turnQueued] at turned
  split at turned
  · contradiction
  · split at turned
    · rename_i submitted sent
      cases turned
      have sentRun : request? { handle with line := handle.line.drain } (.run run.code) =
          some submitted := by
        split at sent
        · exact sent
        · contradiction
      have readies := handle.readies_drain.trans
        ⟨(alike_request? sentRun).runs, posts_request? sentRun⟩
      refine ⟨.running {} [], [], readies.dealt_setPhase receiver withdrawn
        (posts_nil rfl rfl rfl rfl) rfl ?_⟩
      rw [queued]
      exact .begin
    · cases turned
      exact ⟨_, _, (handle.readies_drain.trans (readies_markDead _)).dealt_finish receiver
        withdrawn _ .once⟩

variable {output : Aggregator} {pending : List Nat}

theorem Readies.dealt_crash (readies : handle.Readies ready) (number : Nat)
    (output : Aggregator) (reason : String) {change : Broker → Broker} (closing : Broker.Closing change)
    (closes : desk'.modify run.broker Broker.reset = desk.modify run.broker change) :
    ∃ next values, handle.Dealt receiver withdrawn desk number run
      (crash desk' ready number run.broker output reason).1
      (crash desk' ready number run.broker output reason).2 next values := by
  simp only [crash, conclude, closes]
  exact ⟨_, _, (readies.trans (readies_markDead ready)).dealt_finish receiver withdrawn _ closing⟩

/-- A request is made while the run was not cancelled. -/
theorem Readies.dealt_receive (readies : handle.Readies ready)
    (found : handle.runs[number]? = some run) (running : run.phase = .running output pending)
    (stands : withdrawn = false) (desk : Desk) (event : Event) :
    ∃ next values, handle.Dealt receiver withdrawn desk number run
      (receive receiver desk ready number run.broker output pending event).1
      (receive receiver desk ready number run.broker output pending event).2 next values := by
  have goes (collected : Aggregator) (held : List Nat) {desk' : Desk}
      (deals : desk.Deals receiver run.broker withdrawn (.during pending) desk' (.during held) []) :
      ∃ next values, handle.Dealt receiver withdrawn desk number run desk'
        (ready.setPhase number (.running collected held)) next values := by
    refine ⟨.running collected held, [], readies.dealt_setPhase receiver withdrawn
      (posts_nil rfl rfl rfl rfl) rfl ?_⟩
    rw [running]
    exact deals
  cases event with
  | fault reason => exact readies.dealt_crash receiver withdrawn number output reason .once rfl
  | message content =>
      cases content with
      | ready =>
          have foundReady : ready.runs[number]? = some run := by rw [readies.runs, found]
          have still := setPhase_same foundReady
          have rests := goes output pending (.rest _)
          rw [← running, still] at rests
          exact rests
      | stdout data => exact goes _ _ (.rest _)
      | stderr data => exact goes _ _ (.rest _)
      | inputRequest prompt => exact goes _ _ (.ask pending prompt stands)
      | done => exact ⟨_, _, readies.dealt_finish receiver withdrawn output .once⟩
      | error data => exact ⟨_, _, readies.dealt_finish receiver withdrawn _ .once⟩

/-- An answer is passed on while the run was not cancelled. -/
theorem dealt_answer (running : run.phase = .running output pending) (stands : withdrawn = false)
    (answered : answer desk handle number run.broker output pending = some (desk', after)) :
    ∃ next values, handle.Dealt receiver withdrawn desk number run desk' after next values := by
  cases pending with
  | nil => contradiction
  | cons ticket rest =>
      simp only [answer] at answered
      obtain ⟨value, answers, answered⟩ := Option.bind_eq_some_iff.mp answered
      split at answered
      · have closes := Desk.modify_modify desk run.broker (·.take ticket) Broker.reset
        have crashed := (Readies.refl handle).dealt_crash receiver withdrawn number output
          "worker thread exited" (.taken ticket) closes
        rw [Option.some.inj answered] at crashed
        exact crashed
      · rename_i sent posted
        cases answered
        have alike : sent.runs = handle.runs := (alike_request? posted).runs
        have passed : handle.Posts (sent.setPhase number (.running output rest)) [value] :=
          (posts_request? posted).trans (posts_nil rfl rfl rfl rfl)
        refine ⟨.running output rest, [value], (Readies.refl handle).dealt_setPhase receiver
          withdrawn passed ?_ ?_⟩
        · simp only [setPhase, alike]
        · rw [running]
          exact .pass ticket rest stands answers

/-- What a run does in a turn is one of the things that a caller does with a broker. -/
theorem dealt_turn {cancelled : Bool} (destroyed : Nat → Bool)
    (heeds : ∀ run, handle.runs[number]? = some run → cancelled = false →
      destroyed run.broker = false)
    (turned : handle.turn receiver cancelled desk number = some (desk', after)) :
    ∃ run, handle.runs[number]? = some run ∧ run.phase.goesOn = true ∧
      ∃ next values, handle.Dealt receiver (destroyed run.broker) desk number run desk' after next
        values := by
  simp only [turn] at turned
  obtain ⟨run, found, turned⟩ := Option.bind_eq_some_iff.mp turned
  refine ⟨run, found, ?_⟩
  split at turned
  · rename_i queued
    exact ⟨by rw [queued]; rfl, dealt_turnQueued receiver _ queued turned⟩
  · rename_i output pending running
    refine ⟨by rw [running]; rfl, ?_⟩
    simp only [turnRunning] at turned
    split at turned
    · cases turned
      exact ⟨_, _, handle.readies_terminate.dealt_finish receiver _ output .once⟩
    · rename_i goesOn
      have stands := heeds run found (by simpa using goesOn)
      split at turned
      · rename_i event line received
        obtain ⟨rest, -, rfl⟩ := Link.hostReceive_message received
        have readies : handle.Readies { handle with line := { handle.line with toHost := rest } } :=
          ⟨rfl, posts_nil rfl rfl rfl rfl⟩
        have dealt := readies.dealt_receive receiver _ found running stands desk event
        rw [Option.some.inj turned] at dealt
        exact dealt
      · have closes : desk.modify run.broker Broker.reset =
            desk.modify run.broker Broker.reset := rfl
        have crashed := (Readies.refl handle).dealt_crash receiver (destroyed run.broker) number output
          "worker thread exited" .once closes
        rw [Option.some.inj turned] at crashed
        exact crashed
      · exact dealt_answer receiver _ running stands turned
  · contradiction
  · contradiction

/-- A new run takes its first turn. -/
theorem dealt_run (handle : Handle) (desk : Desk) (broker : Nat) (code : String) :
    ∃ next values, (handle.ask broker code).Dealt receiver withdrawn desk handle.runs.length
      { code, broker } (handle.run desk broker code).1 (handle.run desk broker code).2.1 next
      values := by
  change ∃ next values, Dealt receiver withdrawn desk (handle.ask broker code) handle.runs.length
    { code, broker } ((turnQueued desk (handle.ask broker code) handle.runs.length
      { code, broker }).getD (desk, handle.ask broker code)).1 ((turnQueued desk
      (handle.ask broker code) handle.runs.length { code, broker }).getD (desk,
      handle.ask broker code)).2 next values
  cases turned : turnQueued desk (handle.ask broker code) handle.runs.length { code, broker } with
  | some after => exact dealt_turnQueued receiver withdrawn rfl turned
  | none =>
      have still := setPhase_same (handle.getElem?_ask broker code)
      refine ⟨.queued, [], (Readies.refl _).dealt_setPhase receiver withdrawn
        (posts_nil rfl rfl rfl rfl) ?_ (.rest _)⟩
      rw [Option.getD_none]
      exact congrArg Handle.runs still.symm

end Dealt

/-! ## What else happens to a worker -/

/-- The requests on the way to the interpreter. -/
def outbox (handle : Handle) : List InterpreterRequest :=
  handle.interpreter.elim [] (·.toContext)

/-- The answers that were put on the link to the interpreter between two states. -/
def forwards (before after : Handle) : List String :=
  (after.outbox.drop before.outbox.length).filterMap InterpreterRequest.response?

/-- The relay passes the answers of the host on in order, until it is over. -/
inductive Relays (handle : Handle) (posted relayed : List String) : Prop where
  | stands (isOpen : handle.line.contextOpen = true) (same : relayed ++ handle.answers = posted)
  | ended (closed : handle.line.contextOpen = false) (returned : handle.relay = .returned)
      (isPrefix : relayed <+: posted)

/-- Something happens to a worker, but none of its runs takes a turn. -/
structure Stirs (before after : Handle) : Prop where
  runs : after.runs = before.runs
  lock : after.lock = before.lock
  silent : before.responses after = []
  relays : ∀ posted relayed, before.Relays posted relayed →
    after.Relays posted (relayed ++ before.forwards after)

section Stirs

variable {posted relayed : List String} {request : InterpreterRequest}
  {interpreter : Link InterpreterRequest WorkerMessage}

theorem Relays.isPrefix (relays : handle.Relays posted relayed) : relayed <+: posted := by
  cases relays with
  | stands isOpen same => exact ⟨_, same⟩
  | ended closed returned isPrefix => exact isPrefix

theorem forwards_nil (same : after.outbox = handle.outbox) : handle.forwards after = [] := by
  simp [forwards, same]

/-- What the host puts on the line is to be passed on after all that is there. -/
theorem Relays.posts (relays : handle.Relays posted relayed) (posts : handle.Posts after values) :
    after.Relays (posted ++ values) (relayed ++ handle.forwards after) := by
  have still : handle.forwards after = [] :=
    forwards_nil (by simp only [outbox, posts.interpreter])
  rw [still, List.append_nil]
  cases relays with
  | stands isOpen same =>
      refine .stands (posts.contextOpen.trans isOpen) ?_
      rw [posts.answers, ← List.append_assoc, same]
  | ended closed returned isPrefix =>
      refine .ended (posts.contextOpen.trans closed) (posts.relay.trans returned) ?_
      rw [posts.lost closed, List.append_nil]
      exact isPrefix

theorem Posts.stirs (posts : handle.Posts after []) (runs : after.runs = handle.runs)
    (lock : after.lock = handle.lock) : handle.Stirs after where
  runs := runs
  lock := lock
  silent := posts.responses
  relays posted relayed relays := by simpa using relays.posts posts

theorem Stirs.refl (handle : Handle) : handle.Stirs handle :=
  Posts.stirs (posts_nil rfl rfl rfl rfl) rfl rfl

/-- Nothing is put on the line where it does not grow. -/
theorem responses_nil (shorter : after.line.toContext.length ≤ handle.line.toContext.length) :
    handle.responses after = [] := by
  rw [responses, List.drop_eq_nil_of_le shorter, List.filterMap_nil]

/-- The relay is over, and passes on nothing of what is left. -/
theorem relays_returnRelay (isPrefix : relayed <+: posted) :
    handle.returnRelay.Relays posted relayed :=
  .ended rfl rfl isPrefix

theorem outbox_returnRelay (handle : Handle) : handle.returnRelay.outbox = handle.outbox := by
  simp only [outbox, returnRelay]
  cases handle.interpreter <;> rfl

theorem stirs_returnRelay (handle : Handle) : handle.Stirs handle.returnRelay where
  runs := rfl
  lock := rfl
  silent := responses_nil (Nat.zero_le _)
  relays posted relayed relays := by
    rw [forwards_nil handle.outbox_returnRelay, List.append_nil]
    exact relays_returnRelay relays.isPrefix

theorem stirs_fault (handle : Handle) (reason : String) : handle.Stirs (handle.fault reason) where
  runs := rfl
  lock := rfl
  silent := responses_nil (Nat.zero_le _)
  relays posted relayed relays := by
    have still : handle.forwards (handle.fault reason) = [] :=
      forwards_nil (outbox_returnRelay _)
    rw [still, List.append_nil]
    exact relays_returnRelay relays.isPrefix

theorem stirs_launched (launching : handle.relay = .launching)
    (outcome : Except TransportError Unit) : handle.Stirs (handle.launched outcome) := by
  cases outcome with
  | error cause => exact handle.stirs_fault cause.message
  | ok =>
      refine ⟨rfl, rfl, responses_nil (Nat.le_refl _), ?_⟩
      intro posted relayed relays
      have still : handle.forwards (handle.launched (.ok ())) = [] := by
        simp [forwards, outbox, launched]
      rw [still, List.append_nil]
      cases relays with
      | stands isOpen same => exact .stands isOpen same
      | ended closed returned isPrefix =>
          rw [launching] at returned
          contradiction

/-- The relay has taken a request, and passes on what it says. -/
theorem relays_forward (at_ : handle.interpreter = some interpreter)
    (isOpen : handle.line.contextOpen = true)
    (same : relayed ++ (request.response?.toList ++ handle.answers) = posted) :
    (handle.forward interpreter request).Relays posted
      (relayed ++ handle.forwards (handle.forward interpreter request)) := by
  simp only [forward]
  split
  · rename_i next sent
    simp only [Link.hostSend?] at sent
    split at sent
    · cases sent
      have forwarded : handle.forwards { handle with interpreter := some { interpreter with
          toContext := interpreter.toContext ++ [request] } } = request.response?.toList := by
        simp only [forwards, outbox, at_, Option.elim_some, List.drop_left]
        cases request <;> rfl
      refine .stands isOpen ?_
      rw [forwarded, List.append_assoc]
      exact same
    · contradiction
  · have still : handle.forwards (handle.fault "interpreter stopped accepting requests") = [] :=
      forwards_nil (outbox_returnRelay _)
    rw [still, List.append_nil]
    exact relays_returnRelay ⟨_, same⟩

/-- The relay has taken a request off the line, and passes on what it says. -/
theorem stirs_forward {taken : Request} {rest : List Request}
    (queue : handle.line.toContext = taken :: rest) (relaying : handle.relay = .relaying)
    (at_ : handle.interpreter = some interpreter) (same : request.response? = taken.response?) :
    handle.Stirs (forward { handle with line := { handle.line with toContext := rest } }
      interpreter request) := by
  generalize isTaken : { handle with line := { handle.line with toContext := rest } } = next
  have launched : next.relay ≠ .launching := by
    rw [← isTaken]
    intro launching
    exact nomatch relaying.symm.trans launching
  obtain ⟨runs, lock, -⟩ := relay_forward next launched interpreter request
  have shorter : (next.forward interpreter request).line.toContext.length ≤
      handle.line.toContext.length := by
    rw [queue]
    simp only [forward]
    split
    · simp [← isTaken]
    · exact Nat.zero_le _
  refine ⟨runs.trans (by rw [← isTaken]), lock.trans (by rw [← isTaken]), responses_nil shorter, ?_⟩
  intro posted relayed relays
  have answers : handle.answers = taken.response?.toList ++ next.answers := by
    rw [← isTaken, Handle.answers, queue]
    cases taken <;> rfl
  have forwards : handle.forwards (next.forward interpreter request) =
      next.forwards (next.forward interpreter request) := by rw [← isTaken]; rfl
  rw [forwards]
  cases relays with
  | stands isOpen posts =>
      apply relays_forward
      · rw [← isTaken, at_]
      · rw [← isTaken, isOpen]
      · rw [same, ← answers, posts]
  | ended closed returned isPrefix =>
      rw [relaying] at returned
      contradiction

theorem stirs_turnRequest (turned : handle.turnRequest = some after) : handle.Stirs after := by
  simp only [turnRequest] at turned
  split at turned
  · contradiction
  · rename_i relaying
    obtain ⟨interpreter, at_, turned⟩ := Option.bind_eq_some_iff.mp turned
    split at turned
    · contradiction
    · cases turned
      exact handle.stirs_returnRelay
    · rename_i request line received
      obtain ⟨rest, queue, rfl⟩ := Link.contextReceive_message received
      have relaying : handle.relay = .relaying := by simpa using relaying
      cases request with
      | run code =>
          cases turned
          have silent : (Scan.prepareRun code).response? = none := by
            simp only [Scan.prepareRun]
            split <;> rfl
          exact stirs_forward queue relaying at_ silent
      | inputResponse value =>
          cases turned
          exact stirs_forward queue relaying at_ rfl
      | terminate =>
          cases turned
          refine ⟨rfl, rfl, responses_nil (Nat.zero_le _), ?_⟩
          intro posted relayed relays
          have still : handle.forwards
              (returnRelay { handle with line := { handle.line with toContext := rest } }) = [] :=
            forwards_nil (outbox_returnRelay _)
          rw [still, List.append_nil]
          exact relays_returnRelay relays.isPrefix

theorem stirs_turnMessage (turned : handle.turnMessage = some after) : handle.Stirs after := by
  simp only [turnMessage] at turned
  split at turned
  · contradiction
  · rename_i relaying
    obtain ⟨interpreter, at_, turned⟩ := Option.bind_eq_some_iff.mp turned
    split at turned
    · contradiction
    · cases turned
      exact handle.stirs_fault _
    · rename_i content next received
      have same := Link.toContext_of_hostReceive received
      have still (line : Link Request Event) :
          outbox { handle with line, interpreter := some next } = handle.outbox := by
        simp only [outbox, at_, Option.elim_some, same]
      split at turned
      · rename_i line sent
        cases turned
        simp only [Link.contextSend?] at sent
        split at sent
        · cases sent
          refine ⟨rfl, rfl, responses_nil (Nat.le_refl _), ?_⟩
          intro posted relayed relays
          rw [forwards_nil (still _), List.append_nil]
          cases relays with
          | stands isOpen posts => exact .stands isOpen posts
          | ended closed returned isPrefix => exact .ended closed returned isPrefix
        · contradiction
      · cases turned
        refine ⟨rfl, rfl, responses_nil (Nat.zero_le _), ?_⟩
        intro posted relayed relays
        rw [forwards_nil ((outbox_returnRelay _).trans (still _)), List.append_nil]
        exact relays_returnRelay relays.isPrefix

/-- The interpreter puts nothing on its own link. -/
theorem stirs_act (handle : Handle) (act : Link.Act WorkerMessage) :
    handle.Stirs { handle with interpreter := handle.interpreter.map (·.act act) } := by
  refine ⟨rfl, rfl, responses_nil (Nat.le_refl _), ?_⟩
  intro posted relayed relays
  have still : handle.forwards
      { handle with interpreter := handle.interpreter.map (·.act act) } = [] := by
    rw [forwards, List.drop_eq_nil_of_le, List.filterMap_nil]
    simp only [outbox]
    cases handle.interpreter with
    | none => exact Nat.le_refl _
    | some link => exact link.length_toContext_act_le act
  rw [still, List.append_nil]
  cases relays with
  | stands isOpen same => exact .stands isOpen same
  | ended closed returned isPrefix => exact .ended closed returned isPrefix

theorem stirs_terminate (handle : Handle) : handle.Stirs handle.terminate :=
  handle.posts_terminate.stirs handle.alike_terminate.runs handle.alike_terminate.lock

theorem stirs_drop (handle : Handle) : handle.Stirs handle.drop :=
  handle.posts_drop.stirs handle.alike_terminate.runs handle.alike_terminate.lock

/-- Whoever waits for a worker takes the next event of it. -/
theorem stirs_turnReadiness {readiness : Readiness}
    (turned : handle.turnReadiness = some (after, readiness)) : handle.Stirs after := by
  have takes {line : Link Request Event} {event : Event}
      (received : handle.line.hostReceive = (.message event, line)) :
      handle.Stirs { handle with line } := by
    obtain ⟨rest, -, rfl⟩ := Link.hostReceive_message received
    exact Posts.stirs (posts_nil rfl rfl rfl rfl) rfl rfl
  simp only [turnReadiness] at turned
  split at turned
  · contradiction
  · cases turned
    exact .refl handle
  all_goals
    rename_i received
    cases turned
    exact takes received

end Stirs

end Handle

end Worker

end Polyglot
