import Polyglot.Proofs.Channel.Sights
import Polyglot.Proofs.Sandbox.Collecting
import Polyglot.Proofs.Sandbox.Deeds

/-!
# What calls of a sandbox executor see

In a turn a call sees that the executor was destroyed, or the first message of its context, or that
the context is gone.  When nothing is to be seen it passes an answer on, which always arrives: a
context that is still there takes every message.
-/

namespace Polyglot.Sandbox

/-- What a call sees when its run comes to its end so. -/
def Ending.sight : Ending → Sight
  | completed => .heard SandboxMessage.executionComplete.utterance
  | contextLost => .lost "Sandbox context terminated unexpectedly"
  | destroyed => .calledOff

namespace Executor

/-- What there was to be seen for the call that took a turn. -/
def looks (before after : Executor) : List Sight :=
  if before.isDestroyed then [Ending.destroyed.sight]
  else
    match before.slot with
    | none => [Ending.contextLost.sight]
    | some slot =>
      let context := before.link slot
      if context.toHost.isEmpty && context.isClosed then [Ending.contextLost.sight]
      else (context.gone (after.link slot)).map (.heard ·.utterance)

/-- A call gets to a stage, and no other call gets anywhere. -/
def Reaches (before : Executor) (number : Nat) (stage : Stage) (after : Executor) : Prop :=
  ∃ phase : Phase, phase.stage = stage ∧ after.calls = (before.setPhase number phase).calls

variable {executor before ready after : Executor} {number other : Nat} {call : Call}
  {stage : Stage} {context : Context} {desk desk' : Desk} {purpose : Purpose}
  {receiver : String → Option Nat} {output : Aggregator} {pending : List Nat} {slot : Nat}

/-! ## Stages of calls -/

section Reaching

theorem Reaches.stage_self (reaches : before.Reaches number stage after)
    (called : before.calls[number]? = some call) : after.stage number = stage := by
  obtain ⟨phase, rfl, calls⟩ := reaches
  rw [stage_congr calls, stage_setPhase_self called]

theorem Reaches.stage_of_ne (reaches : before.Reaches number stage after)
    (different : other ≠ number) : after.stage other = before.stage other := by
  obtain ⟨phase, -, calls⟩ := reaches
  rw [stage_congr calls, (spares_setPhase before number phase).stage other different]

theorem reaches_setPhase (calls : ready.calls = before.calls) (number : Nat) (phase : Phase) :
    before.Reaches number phase.stage (ready.setPhase number phase) :=
  ⟨phase, rfl, by rw [setPhase, setPhase, calls]⟩

theorem reaches_finish (calls : ready.calls = before.calls)
    {outcome : Except SandboxError (Option RunResult)}
    (isStage : (Phase.finished outcome).stage = stage) :
    before.Reaches number stage (ready.finish number outcome) :=
  isStage ▸ reaches_setPhase calls number (.finished outcome)

/-- The end of a run adds what is to be seen of it. -/
theorem reaches_conclude (calls : ready.calls = before.calls) (desk : Desk) (number : Nat)
    (output : Aggregator) (ending : Ending) :
    before.Reaches number (.returned (Sight.addTo output ending.sight).finish)
      (conclude desk ready number output ending).2 := by
  have released := (calls_release ready).trans calls
  cases ending with
  | completed => exact reaches_finish ((calls_transition ..).trans calls) rfl
  | contextLost => exact reaches_finish ((calls_transition ..).trans released) rfl
  | destroyed => exact reaches_finish released rfl

end Reaching

/-! ## Calls that do not run yet -/

section Submitting

/-- What was submitted to a context that is there runs. -/
theorem reaches_submit (calls : ready.calls = before.calls) (found : ready.context? = some context)
    (isOpen : context.contextOpen = true) (desk : Desk) (number : Nat) (code : String) :
    before.Reaches number (.hearing {}) (submit desk ready number code).2 := by
  have accepts : context.drain.contextOpen = true := isOpen
  simp only [submit, found, Link.hostSend?, accepts, if_true]
  refine reaches_setPhase ?_ number (.running {} [])
  rw [calls_setContext, calls_transition, calls_setContext, calls]

theorem shows_proceed (calls : ready.calls = before.calls) (found : ready.context? = some context)
    (isOpen : context.contextOpen = true) (desk : Desk) (number : Nat) (purpose : Purpose) :
    ∃ next, Sight.Shows .unsubmitted [] next ∧
      before.Reaches number next (proceed desk ready number purpose).2 := by
  cases purpose with
  | start => exact ⟨.silent, .silence rfl, reaches_finish calls rfl⟩
  | execute code =>
      exact ⟨.hearing {}, .submit, reaches_submit calls found isOpen desk number code⟩

theorem shows_turnQueued
    (turned : turnQueued desk before number purpose = some (desk', after)) :
    ∃ next, Sight.Shows .unsubmitted [] next ∧ before.Reaches number next after := by
  simp only [turnQueued] at turned
  split at turned
  · contradiction
  · split at turned
    · cases turned
      exact ⟨.silent, .silence rfl, reaches_finish rfl rfl⟩
    · split at turned
      · rename_i isOpen
        obtain ⟨context, found, isThere⟩ := (Option.any_eq_true ..).mp isOpen
        have proceeds := shows_proceed rfl found (by simpa [Link.isClosed] using isThere) desk
          number purpose
        rwa [Option.some.inj turned] at proceeds
      · cases turned
        exact ⟨.unsubmitted, .nothing _,
          reaches_setPhase (calls_transition ..) number .launching⟩

theorem shows_launched (desk : Desk) (executor : Executor) (number : Nat) (purpose : Purpose)
    (outcome : Except TransportError Unit) :
    ∃ next, Sight.Shows .unsubmitted [] next ∧
      executor.Reaches number next (launched desk executor number purpose outcome).2 := by
  cases outcome with
  | ok =>
      have adopted : (executor.adopt.transition .ready).context? = some {} := by
        simp [context?, adopt]
      exact shows_proceed ((calls_transition ..).trans (calls_adopt executor)) adopted rfl desk
        number purpose
  | error cause =>
      exact ⟨.silent, .silence rfl,
        reaches_finish ((calls_transition ..).trans (calls_release executor)) rfl⟩

end Submitting

/-! ## Calls that run -/

section Running

theorem looks_of_message {message : SandboxMessage} {rest : List SandboxMessage}
    (stands : before.isDestroyed = false) (kept : before.slot = some slot)
    (queue : (before.link slot).toHost = message :: rest)
    (left : (after.link slot).toHost = rest) :
    before.looks after = [.heard message.utterance] := by
  have taken : (before.link slot).gone (after.link slot) = [message] :=
    Link.gone_eq (by rw [queue, left]; rfl)
  simp [looks, stands, kept, queue, taken]

theorem looks_of_waiting (stands : before.isDestroyed = false) (kept : before.slot = some slot)
    (silent : (before.link slot).toHost = []) (isOpen : (before.link slot).contextOpen = true) :
    before.looks after = [] := by
  simp [looks, stands, kept, silent, isOpen, Link.isClosed, Link.gone]

/-- A run takes in what its context said first. -/
theorem shows_receive (calls : ready.calls = before.calls) (receiver : String → Option Nat)
    (desk : Desk) (number : Nat) (output : Aggregator) (pending : List Nat)
    (message : SandboxMessage) :
    ∃ next, Sight.Shows (.hearing output) [.heard message.utterance] next ∧
      before.Reaches number next (receive receiver desk ready number output pending message).2 := by
  cases message with
  | stdout data | stderr data | inputRequest prompt =>
      exact ⟨_, .goOn rfl, reaches_setPhase calls number (.running _ _)⟩
  | executionComplete =>
      exact ⟨_, .finish rfl, reaches_conclude calls desk number output .completed⟩

theorem link_receive (receiver : String → Option Nat) (desk : Desk) (number : Nat)
    (output : Aggregator) (pending : List Nat) (message : SandboxMessage) :
    (receive receiver desk ready number output pending message).2.link = ready.link := by
  have transitioned : (ready.transition .ready).link = ready.link := by
    funext slot
    rw [link, link, contexts_transition]
  cases message with
  | stdout data | stderr data | inputRequest prompt => rfl
  | executionComplete => exact transitioned

/-- A context that is there takes an answer. -/
theorem reaches_answer (isOpen : context.contextOpen = true)
    (answered : answer desk before number context output pending = some (desk', after)) :
    before.Reaches number (.hearing output) after := by
  cases pending with
  | nil => contradiction
  | cons ticket rest =>
      simp only [answer, Link.hostSend?, isOpen, if_true] at answered
      obtain ⟨value, -, answered⟩ := Option.bind_eq_some_iff.mp answered
      cases answered
      exact reaches_setPhase (calls_setContext ..) number (.running output rest)

/-- What a run finds in a turn. -/
inductive Finds (desk : Desk) (before : Executor) (number : Nat) (output : Aggregator)
    (pending : List Nat) : Option (Desk × Executor) → Prop where
  /-- Its end, which is no message. -/
  | ends {ending : Ending} (sees : ∀ after, before.looks after = [ending.sight]) :
      Finds desk before number output pending
        (some (conclude desk before number output ending))
  | message {receiver : String → Option Nat} {message : SandboxMessage}
      {rest : List SandboxMessage} {slot : Nat} (stands : before.isDestroyed = false)
      (kept : before.slot = some slot)
      (found : before.contexts[slot]? = some (before.link slot))
      (queue : (before.link slot).toHost = message :: rest) :
      Finds desk before number output pending
        (some (receive receiver desk
          (before.setContext { before.link slot with toHost := rest }) number output pending
          message))
  | nothing {slot : Nat} (sees : ∀ after, before.looks after = [])
      (isOpen : (before.link slot).contextOpen = true) :
      Finds desk before number output pending
        (answer desk before number (before.link slot) output pending)

theorem finds_turnRunning (coherent : before.Coherent) (receiver : String → Option Nat)
    (desk : Desk) (number : Nat) (output : Aggregator) (pending : List Nat) :
    Finds desk before number output pending
      (turnRunning receiver desk before number output pending) := by
  rw [turnRunning]
  split
  · rename_i destroyed
    exact .ends fun after => by simp [looks, destroyed]
  · rename_i stands
    rw [Bool.not_eq_true] at stands
    cases kept : before.slot with
    | none =>
        have lacks : before.context? = none := by simp [context?, kept]
        rw [lacks]
        exact .ends fun after => by simp [looks, stands, kept]
    | some slot =>
        have found : before.contexts[slot]? = some (before.link slot) := by
          rw [link, List.getElem?_eq_getElem (coherent.slot_lt slot kept), Option.getD_some]
        rw [context?_eq_some.mpr ⟨slot, kept, found⟩]
        dsimp only
        split
        · rename_i message next received
          obtain ⟨rest, queue, rfl⟩ := Link.hostReceive_message received
          exact .message stands kept found queue
        · rename_i received
          obtain ⟨silent, gone⟩ := Link.hostReceive_gone received
          exact .ends fun after => by simp [looks, stands, kept, silent, gone, Link.isClosed]
        · rename_i received
          obtain ⟨silent, isOpen⟩ := Link.hostReceive_waiting received
          exact .nothing (fun after => looks_of_waiting stands kept silent isOpen) isOpen

/-- What is seen in a turn of a run decides how far it gets. -/
theorem shows_turnRunning (coherent : before.Coherent)
    (turned : turnRunning receiver desk before number output pending = some (desk', after)) :
    ∃ next, Sight.Shows (.hearing output) (before.looks after) next ∧
      before.Reaches number next after := by
  have finds := finds_turnRunning coherent receiver desk number output pending
  rw [turned] at finds
  generalize isTurned : some (desk', after) = found at finds
  cases finds with
  | @ends ending sees =>
      have concluded := reaches_conclude (rfl : before.calls = before.calls) desk number output
        ending
      rw [← Option.some.inj isTurned] at concluded
      rw [sees]
      exact ⟨_, .finish (by cases ending <;> rfl), concluded⟩
  | @message receiver message rest slot stands kept found queue =>
      have left : (after.link slot).toHost = rest := by
        rw [show after = _ from congrArg Prod.snd (Option.some.inj isTurned), link_receive,
          link_of_getElem? (getElem?_setContext kept found _)]
      have received := shows_receive
        (calls_setContext before { before.link slot with toHost := rest }) receiver desk number
        output pending message
      rw [← Option.some.inj isTurned] at received
      rwa [looks_of_message stands kept queue left]
  | nothing sees isOpen =>
      rw [sees]
      exact ⟨_, .nothing _, reaches_answer isOpen isTurned.symm⟩

/-- A run that has to wait sees nothing. -/
theorem looks_of_stuck (coherent : before.Coherent)
    (stuck : turnRunning receiver desk before number output pending = none) (after : Executor) :
    before.looks after = [] := by
  have finds := finds_turnRunning coherent receiver desk number output pending
  rw [stuck] at finds
  generalize isStuck : (none : Option (Desk × Executor)) = found at finds
  cases finds with
  | ends | message => contradiction
  | nothing sees => exact sees after

/-- What one call sees is nothing to the others. -/
theorem Reaches.shows (reaches : before.Reaches other stage after)
    (called : before.calls[other]? = some call) {seen : List Sight}
    (showing : Sight.Shows (before.stage other) seen stage) (number : Nat) :
    Sight.Shows (before.stage number) (if number = other then seen else [])
      (after.stage number) := by
  split
  · rename_i same
    rw [same, reaches.stage_self called]
    exact showing
  · rename_i different
    rw [reaches.stage_of_ne different]
    exact .nothing _

/-- A call that does not run sees nothing. -/
theorem Reaches.shows_nothing (reaches : before.Reaches other stage after)
    (called : before.calls[other]? = some call)
    (showing : Sight.Shows (before.stage other) [] stage) (number : Nat) :
    Sight.Shows (before.stage number) [] (after.stage number) := by
  have shows := reaches.shows called showing number
  rwa [ite_self] at shows

/-- A new call sees nothing before it runs. -/
theorem shows_call (desk : Desk) (executor : Executor) (purpose : Purpose) (number : Nat) :
    Sight.Shows (executor.stage number) [] ((executor.call desk purpose).2.1.stage number) := by
  have stays (phase : Phase) (different : number ≠ executor.calls.length) :
      (executor.withCall purpose phase).stage number = executor.stage number :=
    (executor.spares_withCall purpose phase).stage number different
  have called (phase : Phase) :
      (executor.withCall purpose phase).calls[executor.calls.length]? = some ⟨purpose, phase⟩ :=
    List.getElem?_concat_length
  rcases executor.call_eq desk purpose with ⟨outcome, -, isOutcome, made⟩ | ⟨turned, first, made⟩
  · rw [made]
    dsimp only
    by_cases isNew : number = executor.calls.length
    · rw [isNew, stage_of_getElem? (called _), stage_length]
      rcases isOutcome with rfl | rfl <;> exact .silence rfl
    · rw [stays _ isNew]
      exact .nothing _
  · have asks : (executor.ask purpose).stage number = executor.stage number := by
      by_cases isNew : number = executor.calls.length
      · rw [isNew, stage_length]
        exact stage_of_getElem? (called .queued)
      · exact stays .queued isNew
    rw [made, first, ← asks]
    cases turn : turnQueued desk (executor.ask purpose) executor.calls.length purpose with
    | none => exact .nothing _
    | some next =>
        obtain ⟨stage, showing, reaches⟩ := shows_turnQueued turn
        have unsubmitted : (executor.ask purpose).stage executor.calls.length = .unsubmitted :=
          stage_of_getElem? (called .queued)
        rw [← unsubmitted] at showing
        exact reaches.shows_nothing (called .queued) showing number

/-- Whoever hears is a call that runs. -/
theorem exists_running (hears : (executor.stage number).isHearing = true) :
    ∃ purpose output pending,
      executor.calls[number]? = some ⟨purpose, .running output pending⟩ := by
  cases called : executor.calls[number]? with
  | none => simp [stage, phase?, called, Stage.isHearing] at hears
  | some call =>
      obtain ⟨purpose, phase⟩ := call
      rw [stage_of_getElem? called] at hears
      cases phase with
      | running output pending => exact ⟨purpose, output, pending, rfl⟩
      | finished outcome => rcases outcome with cause | (_ | result) <;> contradiction
      | queued | launching | abandoned => contradiction

/-- The result of a call is that of its stage. -/
theorem result?_eq_stage (executor : Executor) (number : Nat) :
    executor.result? number = (executor.stage number).result? := by
  rw [result?, stage]
  cases executor.phase? number with
  | none => rfl
  | some phase =>
      cases phase with
      | finished outcome => rcases outcome with cause | (_ | result) <;> rfl
      | queued | launching | running output pending | abandoned => rfl

end Running

end Executor

/-! ## Histories -/

namespace Place

/-- What a call sees in an event. -/
def sees (place : Place) (number : Nat) : Event → List Sight
  | .poll receiver polled =>
    if polled = number && (place.executor.stage number).isHearing then
      place.executor.looks (place.step (.poll receiver polled)).executor
    else []
  | _ => []

/-- What a call sees in several events. -/
def sights (place : Place) (number : Nat) : List Event → List Sight
  | [] => []
  | event :: events => place.sees number event ++ (place.step event).sights number events

variable {place : Place}

theorem shows_poll (coherent : place.executor.Coherent) (number : Nat)
    (receiver : String → Option Nat) (polled : Nat) :
    Sight.Shows (place.executor.stage number) (place.sees number (.poll receiver polled))
      ((place.step (.poll receiver polled)).executor.stage number) := by
  cases turned : place.executor.turn receiver place.desk polled with
  | none =>
      have same : place.step (.poll receiver polled) = place := by simp only [step, turned]
      have unseen : place.sees number (.poll receiver polled) = [] := by
        rw [sees, same]
        split
        · rename_i isSeen
          obtain ⟨isPolled, hears⟩ := Bool.and_eq_true_iff.mp isSeen
          obtain ⟨purpose, output, pending, called⟩ := Executor.exists_running hears
          rw [of_decide_eq_true isPolled, Executor.turn, called] at turned
          exact Executor.looks_of_stuck coherent turned _
        · rfl
      rw [unseen, same]
      exact .nothing _
  | some next =>
      have isNext : (place.step (.poll receiver polled)).executor = next.2 := by
        simp only [step, turned]
      rw [Executor.turn] at turned
      obtain ⟨⟨purpose, phase⟩, called, turned⟩ := Option.bind_eq_some_iff.mp turned
      have isStage := Executor.stage_of_getElem? called
      have unseen (deaf : phase.stage.isHearing = false) :
          place.sees number (.poll receiver polled) = [] := by
        rw [sees, if_neg]
        rw [Bool.and_eq_true, not_and]
        intro isPolled
        rw [← of_decide_eq_true isPolled, isStage, deaf]
        exact Bool.false_ne_true
      cases phase with
      | queued =>
          obtain ⟨stage, showing, reaches⟩ := Executor.shows_turnQueued turned
          rw [unseen rfl, isNext]
          exact reaches.shows_nothing called (isStage ▸ showing) number
      | running output pending =>
          obtain ⟨stage, showing, reaches⟩ := Executor.shows_turnRunning coherent turned
          have seen : place.sees number (.poll receiver polled) =
              if number = polled then place.executor.looks next.2 else [] := by
            rw [sees, isNext]
            by_cases same : number = polled
            · rw [if_pos same, same, isStage, decide_eq_true rfl]
              rfl
            · rw [if_neg same, decide_eq_false (Ne.symm same)]
              rfl
          rw [seen, isNext]
          exact reaches.shows called (isStage ▸ showing) number
      | launching | finished outcome | abandoned => contradiction

/-- What a call sees in an event decides how far it gets. -/
theorem shows_step (coherent : place.executor.Coherent) (number : Nat) (event : Event) :
    Sight.Shows (place.executor.stage number) (place.sees number event)
      ((place.step event).executor.stage number) := by
  have stays {after : Executor} (calls : after.calls = place.executor.calls) :
      Sight.Shows (place.executor.stage number) [] (after.stage number) := by
    rw [Executor.stage_congr calls]
    exact .nothing _
  cases event with
  | call purpose => exact Executor.shows_call place.desk place.executor purpose number
  | poll receiver polled => exact shows_poll coherent number receiver polled
  | launched other outcome =>
      simp only [step]
      split
      · rename_i launching
        obtain ⟨next, showing, reaches⟩ := Executor.shows_launched place.desk place.executor other
          ((place.executor.purpose? other).getD .start) outcome
        have isPhase := isInside_of_isLaunching launching
        obtain ⟨call, called, phase⟩ := Option.map_eq_some_iff.mp isPhase
        have unsubmitted : place.executor.stage other = .unsubmitted := by
          rw [Executor.stage_of_getElem? called, phase]
          rfl
        rw [← unsubmitted] at showing
        exact reaches.shows_nothing called showing number
      · exact stays rfl
  | abandon other =>
      simp only [step, Executor.abandon]
      split
      · exact stays rfl
      · rename_i unended
        cases called : place.executor.calls[other]? with
        | none =>
            apply stays
            exact List.modify_eq_self (List.getElem?_eq_none_iff.mp called)
        | some call =>
            have silences : Sight.Shows (place.executor.stage other) [] .silent := by
              apply Sight.Shows.silence
              rw [← Executor.result?_eq_stage, Option.eq_none_iff_forall_ne_some]
              intro result isResult
              apply unended
              rw [Executor.result?_eq_some.mp isResult]
              rfl
            exact Executor.Reaches.shows_nothing ⟨.abandoned, rfl, rfl⟩ called silences number
  | destroy =>
      apply stays
      simp only [step, Executor.destroy]
      split
      · rfl
      · split
        · exact Executor.calls_release _
        · rfl
  | context other act => exact stays rfl
  | desk desk => exact stays rfl

/-- A call has seen what made it get so far. -/
theorem fits_run {seen : List Sight} (coherent : place.executor.Coherent) (number : Nat)
    (fits : Sight.Fits seen (place.executor.stage number)) (events : List Event) :
    Sight.Fits (seen ++ place.sights number events)
      ((place.run events).executor.stage number) := by
  induction events generalizing place seen with
  | nil =>
      rw [sights, List.append_nil]
      exact fits
  | cons event events ih =>
      rw [sights, ← List.append_assoc]
      exact ih (coherent_step coherent event) (fits.shows (shows_step coherent number event))

/-- A call returns what is made of what it saw. -/
theorem isMadeOf_run (desk : Desk) (language : String) (broker : Nat) (events : List Event)
    (number : Nat) :
    Sight.IsMadeOf (((fresh desk language broker).run events).executor.result? number)
      ((fresh desk language broker).sights number events) := by
  rw [Executor.result?_eq_stage]
  have unsubmitted : Sight.Fits [] ((fresh desk language broker).executor.stage number) := rfl
  exact (fits_run (Executor.coherent_fresh language broker) number unsubmitted events).isMadeOf

end Place

end Polyglot.Sandbox
