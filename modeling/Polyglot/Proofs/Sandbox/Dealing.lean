import Polyglot.Proofs.Input.Exchange
import Polyglot.Proofs.Sandbox.Deeds
import Polyglot.Proofs.Sandbox.Destruction

/-!
# What a sandbox call does with its broker

Whatever a call does in a turn, it deals with the broker of its executor in one of a few
ways: it leaves it alone, clears it before its code runs or when it is over, asks, or passes
on the answer to the oldest of its requests.
-/

namespace Polyglot

/-- The answer that a message carries. -/
def HostMessage.response? : HostMessage → Option String
  | .inputResponse value => some value
  | .executeCode _ => none

namespace Sandbox

/-- What a call holds of the broker that stands there. -/
def Phase.holding : Phase → Holding
  | .queued | .launching => .before
  | .running _ pending => .during pending
  | .finished _ | .abandoned => .ended

namespace Executor

/-- What a call holds of the broker of the executor; one that was not made holds nothing. -/
def holding (executor : Executor) (number : Nat) : Holding :=
  (executor.phase? number).elim .before Phase.holding

/-- The answers that were put on the links between two states. -/
def responses (before after : Executor) : List String :=
  (before.sent after).filterMap HostMessage.response?

/-- No answer was put on a link. -/
def Mute (before after : Executor) : Prop :=
  ∀ number, ∃ more, after.outbox number = before.outbox number ++ more ∧
    more.filterMap HostMessage.response? = []

/-- What a call does before it goes on or ends: no call stands anywhere else, and no answer
is sent. -/
structure Readies (before after : Executor) : Prop where
  calls : after.calls = before.calls
  broker : after.broker = before.broker
  destroyed : after.isDestroyed = before.isDestroyed
  mute : before.Mute after

/-- What a call does in a turn, as far as its broker is concerned. -/
structure Dealt (receiver : String → Option Nat) (desk : Desk) (before : Executor) (number : Nat)
    (desk' : Desk) (after : Executor) : Prop where
  others : ∀ other, other ≠ number → after.holding other = before.holding other
  broker : after.broker = before.broker
  destroyed : after.isDestroyed = before.isDestroyed
  deals : desk.Deals receiver before.broker before.isDestroyed (before.holding number) desk'
    (after.holding number) (before.responses after)

variable {executor ready after : Executor} {desk desk' : Desk} {number : Nat} {phase next : Phase}
  {purpose : Purpose}

/-! ## What is sent -/

section Mute

theorem mute_of_outbox (same : ∀ number, after.outbox number = executor.outbox number) :
    executor.Mute after :=
  fun number => ⟨[], by simp [same], rfl⟩

theorem mute_congr (same : after.contexts = executor.contexts) : executor.Mute after :=
  mute_of_outbox (outbox_congr same)

theorem Mute.trans (left : executor.Mute ready) (right : ready.Mute after) :
    executor.Mute after := by
  intro number
  obtain ⟨first, isFirst, silent⟩ := left number
  obtain ⟨second, isSecond, silentToo⟩ := right number
  refine ⟨first ++ second, ?_, ?_⟩
  · rw [isSecond, isFirst, List.append_assoc]
  · rw [List.filterMap_append, silent, silentToo, List.append_nil]

theorem Mute.responses (mute : executor.Mute after) : executor.responses after = [] := by
  simp only [Executor.responses, sent, List.filterMap_flatMap, List.flatMap_eq_nil_iff]
  intro number _
  obtain ⟨more, grown, silent⟩ := mute number
  rwa [grown, List.drop_left]

theorem mute_adopt (executor : Executor) : executor.Mute executor.adopt := by
  apply mute_of_outbox
  intro number
  rw [← outbox_release executor number]
  by_cases old : number < executor.release.contexts.length
  · simp [outbox, adopt, List.getElem?_append_left old]
  · by_cases new : number = executor.release.contexts.length
    · simp [outbox, adopt, new]
    · have beyond : (executor.release.contexts ++ [({} : Context)]).length ≤ number := by
        simp only [List.length_append, List.length_singleton]
        omega
      simp [outbox, adopt, List.getElem?_eq_none beyond,
        List.getElem?_eq_none (Nat.le_of_not_lt old)]

/-- The queue of the context in use is the only one that can grow. -/
theorem outbox_setContext {slot : Nat} {context : Context} (kept : executor.slot = some slot)
    (found : executor.contexts[slot]? = some context) (next : Context) (number : Nat) :
    (executor.setContext next).outbox number =
      if number = slot then next.toContext else executor.outbox number := by
  by_cases same : number = slot
  · rw [if_pos same, same, outbox, getElem?_setContext kept found]
    rfl
  · have different : slot ≠ number := fun equal => same equal.symm
    rw [if_neg same, outbox, contexts_setContext_of kept, List.getElem?_set_ne different, outbox]

theorem mute_setContext {context next : Context} (found : executor.context? = some context)
    {more : List HostMessage} (grown : next.toContext = context.toContext ++ more)
    (silent : more.filterMap HostMessage.response? = []) :
    executor.Mute (executor.setContext next) := by
  obtain ⟨slot, kept, at_⟩ := context?_eq_some.mp found
  intro number
  rw [outbox_setContext kept at_]
  by_cases same : number = slot
  · refine ⟨more, ?_, silent⟩
    rw [if_pos same, grown, same, outbox, at_]
    rfl
  · exact ⟨[], by simp [same], rfl⟩

/-- What is sent to one context is all that is sent. -/
theorem sent_setContext {context next : Context} (found : executor.context? = some context)
    {more : List HostMessage} (grown : next.toContext = context.toContext ++ more) :
    executor.sent (executor.setContext next) = more := by
  obtain ⟨slot, kept, at_⟩ := context?_eq_some.mp found
  have inside : slot < executor.contexts.length := (List.getElem?_eq_some_iff.mp at_).1
  have each : ∀ number, ((executor.setContext next).outbox number).drop
      (executor.outbox number).length = if number = slot then more else [] := by
    intro number
    rw [outbox_setContext kept at_]
    by_cases same : number = slot
    · simp [same, grown, outbox, at_]
    · simp [same]
  have others : ∀ other, other ≠ slot → (if other = slot then more else []) = [] :=
    fun other different => if_neg different
  simp only [sent, each, length_setContext]
  rw [flatMap_range_eq inside others, if_pos rfl]

end Mute

/-! ## Up to where a call goes on or ends -/

section Readies

@[simp] theorem broker_transition (executor : Executor) (stage : Lifecycle) :
    (executor.transition stage).broker = executor.broker := by
  unfold transition; split <;> rfl

@[simp] theorem broker_setContext (executor : Executor) (context : Context) :
    (executor.setContext context).broker = executor.broker := by
  unfold setContext; split <;> rfl

@[simp] theorem broker_release (executor : Executor) :
    executor.release.broker = executor.broker := by
  unfold release; split <;> rfl

@[simp] theorem broker_adopt (executor : Executor) : executor.adopt.broker = executor.broker := by
  simp [adopt]

theorem Readies.refl (executor : Executor) : executor.Readies executor :=
  ⟨rfl, rfl, rfl, mute_congr rfl⟩

theorem Readies.trans (left : executor.Readies ready) (right : ready.Readies after) :
    executor.Readies after :=
  ⟨right.calls.trans left.calls, right.broker.trans left.broker,
    right.destroyed.trans left.destroyed, left.mute.trans right.mute⟩

theorem Readies.transition (readies : executor.Readies ready) (stage : Lifecycle)
    (stands : stage ≠ .destroyed) : executor.Readies (ready.transition stage) := by
  refine readies.trans ⟨by simp, by simp, ?_, mute_congr (by simp)⟩
  cases gone : ready.isDestroyed with
  | true => rw [transition_of_isDestroyed gone, gone]
  | false =>
      rw [Executor.transition, if_neg (by simp [gone])]
      simp [isDestroyed, stands]

theorem Readies.release (readies : executor.Readies ready) : executor.Readies ready.release :=
  readies.trans ⟨by simp, by simp, isDestroyed_congr (by simp),
    mute_of_outbox (outbox_release ready)⟩

theorem Readies.adopt (readies : executor.Readies ready) : executor.Readies ready.adopt :=
  readies.trans ⟨by simp, by simp, isDestroyed_congr (by simp), mute_adopt ready⟩

theorem Readies.setContext (readies : executor.Readies ready) {context next : Context}
    (found : ready.context? = some context) {more : List HostMessage}
    (grown : next.toContext = context.toContext ++ more)
    (silent : more.filterMap HostMessage.response? = []) :
    executor.Readies (ready.setContext next) :=
  readies.trans ⟨by simp, by simp, isDestroyed_congr (by simp),
    mute_setContext found grown silent⟩

theorem holding_of_phase? (called : executor.phase? number = some phase) :
    executor.holding number = phase.holding := by
  rw [holding, called]
  rfl

theorem holding_congr (same : after.calls = executor.calls) (number : Nat) :
    after.holding number = executor.holding number := by
  rw [holding, phase?_congr same, holding]

theorem holding_setPhase (called : executor.phase? number = some phase) :
    (executor.setPhase number next).holding number = next.holding :=
  holding_of_phase? (by rw [phase?_setPhase, if_pos rfl, called]; rfl)

theorem holding_setPhase_of_ne {other : Nat} (different : other ≠ number) :
    (executor.setPhase number next).holding other = executor.holding other := by
  rw [holding, phase?_setPhase, if_neg different, holding]

end Readies

/-! ## Turns -/

section Dealt

variable (receiver : String → Option Nat)

/-- A call goes on after it has dealt with the broker. -/
theorem Readies.dealt (readies : executor.Readies ready)
    (called : executor.phase? number = some phase)
    (calls : after.calls = (ready.setPhase number next).calls) (broker : after.broker = ready.broker)
    (destroyed : after.isDestroyed = ready.isDestroyed) (contexts : after.contexts = ready.contexts)
    (deals : desk.Deals receiver executor.broker executor.isDestroyed phase.holding desk'
      next.holding []) :
    executor.Dealt receiver desk number desk' after where
  others other different := by
    rw [holding_congr calls, holding_setPhase_of_ne different, holding_congr readies.calls]
  broker := broker.trans readies.broker
  destroyed := destroyed.trans readies.destroyed
  deals := by
    rw [(readies.mute.trans (mute_congr contexts)).responses, holding_of_phase? called,
      holding_congr calls, holding_setPhase (by rw [phase?_congr readies.calls, called])]
    exact deals

theorem Readies.dealt_setPhase (readies : executor.Readies ready)
    (called : executor.phase? number = some phase)
    (deals : desk.Deals receiver executor.broker executor.isDestroyed phase.holding desk'
      next.holding []) :
    executor.Dealt receiver desk number desk' (ready.setPhase number next) :=
  readies.dealt receiver called rfl rfl rfl rfl deals

theorem Readies.dealt_finish (readies : executor.Readies ready)
    (called : executor.phase? number = some phase)
    (outcome : Except SandboxError (Option RunResult))
    (deals : desk.Deals receiver executor.broker executor.isDestroyed phase.holding desk' .ended []) :
    executor.Dealt receiver desk number desk' (ready.finish number outcome) :=
  readies.dealt receiver called rfl rfl rfl rfl deals

/-- A call whose run ends closes what is left open at the broker. -/
theorem Readies.dealt_conclude (readies : executor.Readies ready)
    (called : executor.phase? number = some phase) (output : Aggregator) (ending : Ending)
    {change : Broker → Broker} (closing : Broker.Closing change)
    (closes : desk'.modify executor.broker Broker.reset = desk.modify executor.broker change) :
    executor.Dealt receiver desk number (Executor.conclude desk' ready number output ending).1
      (Executor.conclude desk' ready number output ending).2 := by
  have stops : desk.Deals receiver executor.broker executor.isDestroyed phase.holding
      (desk'.modify ready.broker Broker.reset) .ended [] := by
    rw [readies.broker, closes]
    exact .stop _ closing
  cases ending with
  | completed => exact (readies.transition .ready (by decide)).dealt_finish receiver called _ stops
  | contextLost =>
      have released := readies.release.transition .unstarted (by decide)
      exact released.dealt_finish receiver called _ stops
  | destroyed => exact readies.release.dealt_finish receiver called _ stops

theorem Readies.dealt_submit (readies : executor.Readies ready)
    (called : executor.phase? number = some phase) (waits : phase.holding = .before)
    (desk : Desk) (code : String) :
    executor.Dealt receiver desk number (Executor.submit desk ready number code).1
      (Executor.submit desk ready number code).2 := by
  cases found : ready.context? with
  | none =>
      simp only [Executor.submit, found]
      refine readies.dealt_finish receiver called _ ?_
      rw [waits]
      exact .refuse
  | some context =>
      have cleared : executor.Readies (ready.setContext context.drain) :=
        readies.setContext found (List.append_nil _).symm rfl
      have drained := cleared.transition .executing (by decide)
      have kept : ((ready.setContext context.drain).transition .executing).context? =
          some context.drain := by
        obtain ⟨slot, kept, at_⟩ := context?_eq_some.mp found
        refine context?_eq_some.mpr ⟨slot, by simpa using kept, ?_⟩
        rw [contexts_transition]
        exact getElem?_setContext kept at_ _
      simp only [Executor.submit, found]
      split
      · refine drained.dealt_conclude receiver called {} .contextLost .twice ?_
        rw [readies.broker, Desk.modify_modify]
        rfl
      · rename_i sent posted
        have grown : sent.toContext = context.drain.toContext ++
            [.executeCode (Scan.prepareForSandbox code)] := by
          simp only [Link.hostSend?] at posted
          split at posted
          · rw [← Option.some.inj posted]
          · contradiction
        refine (drained.setContext kept grown rfl).dealt_setPhase receiver called ?_
        rw [waits, readies.broker]
        exact .begin

theorem Readies.dealt_proceed (readies : executor.Readies ready)
    (called : executor.phase? number = some phase) (waits : phase.holding = .before)
    (desk : Desk) (purpose : Purpose) :
    executor.Dealt receiver desk number (Executor.proceed desk ready number purpose).1
      (Executor.proceed desk ready number purpose).2 := by
  cases purpose with
  | execute code => exact readies.dealt_submit receiver called waits desk code
  | start =>
      refine readies.dealt_finish receiver called _ ?_
      rw [waits]
      exact .refuse

theorem dealt_turnQueued (called : executor.phase? number = some .queued)
    (turned : Executor.turnQueued desk executor number purpose = some (desk', after)) :
    executor.Dealt receiver desk number desk' after := by
  simp only [Executor.turnQueued] at turned
  split at turned
  · contradiction
  · split at turned
    · cases turned
      exact (Readies.refl executor).dealt_finish receiver called _ .refuse
    · split at turned
      · have proceeded := (Readies.refl executor).dealt_proceed receiver called rfl
          desk purpose
        rw [Option.some.inj turned] at proceeded
        exact proceeded
      · cases turned
        have initializes := (Readies.refl executor).transition .initializing (by decide)
        exact initializes.dealt_setPhase receiver called (.rest .before)

theorem dealt_launched (called : executor.phase? number = some .launching) (desk : Desk)
    (purpose : Purpose) (outcome : Except TransportError Unit) :
    executor.Dealt receiver desk number (Executor.launched desk executor number purpose outcome).1
      (Executor.launched desk executor number purpose outcome).2 := by
  cases outcome with
  | ok =>
      have adopted := (Readies.refl executor).adopt.transition .ready (by decide)
      exact adopted.dealt_proceed receiver called rfl desk purpose
  | error cause =>
      have released := (Readies.refl executor).release.transition .unstarted (by decide)
      exact released.dealt_finish receiver called _ .refuse

variable {output : Aggregator} {pending : List Nat} {context : Context}

/-- A request is made while the executor was not destroyed. -/
theorem Readies.dealt_receive (readies : executor.Readies ready)
    (called : executor.phase? number = some (.running output pending))
    (stands : executor.isDestroyed = false) (desk : Desk) (message : SandboxMessage) :
    executor.Dealt receiver desk number
      (Executor.receive receiver desk ready number output pending message).1
      (Executor.receive receiver desk ready number output pending message).2 := by
  cases message with
  | stdout data => exact readies.dealt_setPhase receiver called (.rest _)
  | stderr data => exact readies.dealt_setPhase receiver called (.rest _)
  | inputRequest message =>
      simp only [Executor.receive]
      rw [readies.broker]
      exact readies.dealt_setPhase receiver called (.ask pending message stands)
  | executionComplete => exact readies.dealt_conclude receiver called output .completed .once rfl

/-- An answer is passed on while the executor was not destroyed. -/
theorem dealt_answer (called : executor.phase? number = some (.running output pending))
    (stands : executor.isDestroyed = false) (found : executor.context? = some context)
    (answered : Executor.answer desk executor number context output pending =
      some (desk', after)) :
    executor.Dealt receiver desk number desk' after := by
  cases pending with
  | nil => simp [Executor.answer] at answered
  | cons ticket rest =>
      simp only [Executor.answer] at answered
      obtain ⟨value, answers, answered⟩ := Option.bind_eq_some_iff.mp answered
      split at answered
      · have closes := Desk.modify_modify desk executor.broker (·.take ticket) Broker.reset
        have concluded := (Readies.refl executor).dealt_conclude receiver called output
          .contextLost (.taken ticket) closes
        rw [Option.some.inj answered] at concluded
        exact concluded
      · rename_i sent posted
        cases answered
        have grown : sent.toContext = context.toContext ++ [.inputResponse value] := by
          simp only [Link.hostSend?] at posted
          split at posted
          · rw [← Option.some.inj posted]
          · contradiction
        have alike : (executor.setContext sent).calls = executor.calls := by simp
        have responses : executor.responses
            ((executor.setContext sent).setPhase number (.running output rest)) = [value] := by
          rw [Executor.responses, sent_congr (contexts_setPhase _ number _),
            sent_setContext found grown]
          rfl
        refine ⟨?_, ?_, ?_, ?_⟩
        · intro other different
          rw [holding_setPhase_of_ne different, holding_congr alike]
        · exact broker_setContext executor sent
        · exact isDestroyed_congr (lifecycle_setContext executor sent)
        · rw [responses, holding_of_phase? called,
            holding_setPhase (by rw [phase?_congr alike, called])]
          exact .pass ticket rest stands answers

theorem dealt_turnRunning (called : executor.phase? number = some (.running output pending))
    (turned : Executor.turnRunning receiver desk executor number output pending =
      some (desk', after)) :
    executor.Dealt receiver desk number desk' after := by
  simp only [Executor.turnRunning] at turned
  have ends : ∀ ending, Executor.conclude desk executor number output ending = (desk', after) →
      executor.Dealt receiver desk number desk' after := by
    intro ending concluded
    have closes : desk.modify executor.broker Broker.reset =
        desk.modify executor.broker Broker.reset := rfl
    have ended := (Readies.refl executor).dealt_conclude receiver called output ending .once closes
    rwa [concluded] at ended
  split at turned
  · exact ends .destroyed (Option.some.inj turned)
  · rename_i stands
    have stands : executor.isDestroyed = false := by simpa using stands
    split at turned
    · exact ends .contextLost (Option.some.inj turned)
    · rename_i context found
      split at turned
      · rename_i message rest taken
        have same : rest.toContext = context.toContext ++ [] := by
          simp only [Link.hostReceive] at taken
          split at taken
          · cases taken
            exact (List.append_nil _).symm
          · split at taken <;> cases taken
        have received := ((Readies.refl executor).setContext found same rfl).dealt_receive
          receiver called stands desk message
        rw [Option.some.inj turned] at received
        exact received
      · exact ends .contextLost (Option.some.inj turned)
      · exact dealt_answer receiver called stands found turned

/-- What a call does in a turn is one of the things that a caller does with a broker. -/
theorem dealt_turn (turned : executor.turn receiver desk number = some (desk', after)) :
    executor.Dealt receiver desk number desk' after := by
  simp only [Executor.turn] at turned
  obtain ⟨call, found, turned⟩ := Option.bind_eq_some_iff.mp turned
  have called := phase?_of_getElem? found
  split at turned
  · rename_i queued
    exact dealt_turnQueued receiver (queued ▸ called) turned
  · rename_i output pending running
    exact dealt_turnRunning receiver (running ▸ called) turned
  · contradiction
  · contradiction
  · contradiction

/-- A new call asks for nothing before it has the lock. -/
theorem holding_ask (executor : Executor) (purpose : Purpose) (number : Nat) :
    (executor.ask purpose).holding number = executor.holding number := by
  rw [holding, phase?_ask, holding]
  by_cases last : number = executor.calls.length
  · simp [last, phase?, Phase.holding]
  · rw [if_neg last]

/-- A new call takes its first turn. -/
theorem dealt_call (executor : Executor) (desk : Desk)
    (purpose : Purpose) :
    executor.Dealt receiver desk executor.calls.length (executor.call desk purpose).1
      (executor.call desk purpose).2.1 := by
  have unmade : executor.holding executor.calls.length = .before := by simp [holding, phase?]
  rcases executor.call_eq desk purpose with ⟨outcome, -, -, called⟩ | ⟨turned, first, called⟩
  · rw [called]
    refine ⟨?_, rfl, rfl, ?_⟩
    · intro other different
      rw [holding, phase?_withCall, if_neg different, holding]
    · have ended : (executor.withCall purpose (.finished outcome)).holding executor.calls.length =
          .ended := holding_of_phase? ((executor.phase?_withCall _ _ _).trans (if_pos rfl))
      have silent : executor.responses (executor.withCall purpose (.finished outcome)) = [] :=
        (mute_congr rfl).responses
      rw [unmade, ended, silent]
      exact .refuse
  · rw [called, first]
    have asked : (executor.ask purpose).phase? executor.calls.length = some .queued := by
      rw [phase?_ask, if_pos rfl]
    have silent : executor.Mute (executor.ask purpose) := mute_congr rfl
    cases turn : turnQueued desk (executor.ask purpose) executor.calls.length purpose with
    | none =>
        refine ⟨fun other _ => executor.holding_ask purpose other, rfl, rfl, ?_⟩
        rw [Option.getD_none, silent.responses, holding_ask]
        exact .rest _
    | some after =>
        obtain ⟨desk', after⟩ := after
        obtain ⟨others, broker, destroyed, deals⟩ :=
          dealt_turnQueued receiver asked turn
        refine ⟨?_, broker, destroyed, ?_⟩
        · intro other different
          rw [Option.getD_some, others other different, holding_ask]
        · rw [holding_ask] at deals
          exact deals

end Dealt

/-! ## Callers that go away, and destruction -/

section Endings

/-- A caller that goes away before its call is over gives up the tickets that the call
holds. -/
theorem abandon_of_called (called : executor.phase? number = some phase)
    (unfinished : (executor.outcome? number).isSome = false) (desk : Desk) :
    (executor.abandon desk number).1 =
        desk.abandonAll executor.broker (executor.holding number).tickets ∧
      ∀ other, (executor.abandon desk number).2.holding other =
        if other = number then .ended else executor.holding other := by
  have held : executor.heldTickets number = (executor.holding number).tickets := by
    rw [heldTickets, holding_of_phase? called, called]
    cases phase <;> rfl
  have calls : (executor.abandon desk number).2.calls =
      (executor.setPhase number .abandoned).calls := by
    simp [Executor.abandon, unfinished]
  refine ⟨by simp [Executor.abandon, unfinished, held], ?_⟩
  intro other
  rw [holding_congr calls]
  by_cases own : other = number
  · rw [if_pos own, own, holding_setPhase called]
    rfl
  · rw [if_neg own, holding_setPhase_of_ne own]

/-- Nothing is given up of a call that was not made. -/
theorem abandon_of_uncalled (uncalled : executor.phase? number = none) (desk : Desk) :
    (executor.abandon desk number).1 = desk.modify executor.broker id ∧
      (executor.abandon desk number).2.calls = executor.calls := by
  have missing : executor.calls[number]? = none := by simpa [phase?] using uncalled
  have beyond := List.getElem?_eq_none_iff.mp missing
  have unfinished : executor.outcome? number = none := by simp [outcome?, uncalled]
  have nothing : executor.heldTickets number = [] := by simp [heldTickets, uncalled]
  simp only [Executor.abandon, unfinished, nothing]
  exact ⟨rfl, List.modify_eq_self beyond⟩

theorem abandon_frame (executor : Executor) (desk : Desk) (number : Nat) :
    (executor.abandon desk number).2.broker = executor.broker ∧
      (executor.abandon desk number).2.isDestroyed = executor.isDestroyed ∧
      executor.responses (executor.abandon desk number).2 = [] := by
  simp only [Executor.abandon]
  split
  · exact ⟨rfl, rfl, (mute_congr rfl).responses⟩
  · exact ⟨rfl, rfl, (mute_congr rfl).responses⟩

/-- Destruction closes the tickets that are open. -/
theorem destroy_of_stands (stands : executor.isDestroyed = false) (desk : Desk) :
    (executor.destroy desk).1 = desk.modify executor.broker Broker.reset ∧
      (executor.destroy desk).2.isDestroyed = true ∧
      (executor.destroy desk).2.broker = executor.broker ∧
      (executor.destroy desk).2.calls = executor.calls ∧
      executor.responses (executor.destroy desk).2 = [] := by
  have silent : executor.Mute { executor with lifecycle := .destroyed } := mute_congr rfl
  simp only [Executor.destroy, stands, Bool.false_eq_true, if_false]
  refine ⟨trivial, ?_⟩
  split
  · refine ⟨?_, by simp, by simp, (silent.trans (mute_of_outbox (outbox_release _))).responses⟩
    simp [isDestroyed]
  · exact ⟨by simp [isDestroyed], rfl, rfl, silent.responses⟩

/-- A context sends nothing to itself. -/
theorem responses_act (executor : Executor) (number : Nat) (act : Link.Act SandboxMessage) :
    executor.responses
      { executor with contexts := executor.contexts.modify number (·.act act) } = [] := by
  rw [responses, sent_eq_nil, List.filterMap_nil]
  intro other
  simp only [outbox, List.getElem?_modify]
  by_cases same : number = other
  · cases executor.contexts[other]? with
    | none => simp
    | some context => simpa [same] using context.length_toContext_act_le act
  · simp [same]

end Endings

end Executor

end Sandbox

end Polyglot
