import Polyglot.Proofs.Channel.Sights
import Polyglot.Proofs.Worker.Collecting
import Polyglot.Proofs.Worker.Deeds
import Polyglot.Proofs.Worker.Moves

/-!
# What runs on a worker see

A run that holds the lock sees whether the worker can still be given work.  From then on it sees
in a turn that it was cancelled, or the first event on the line, or that the relay is gone.  When
nothing is to be seen it passes an answer on, which always arrives: a relay that is still there
takes every request.
-/

namespace Polyglot.Worker

/-- The worker is lost, and for what reason. -/
def crashed (reason : String) : Sight := .lost s!"Worker crashed: {reason}"

/-- What a run sees in an event. -/
def Event.sight : Event → Sight
  | .message content => .heard content.utterance
  | .fault reason => crashed reason

namespace Handle

/-- What there is to be seen for a run that has not submitted its code yet. -/
def lookIn (handle : Handle) (number : Nat) : List Sight :=
  if handle.lock.isHeldBy number && !handle.isAlive then [crashed "worker is not running"] else []

/-- What there was to be seen for the run that took a turn. -/
def looks (cancelled : Bool) (before after : Handle) : List Sight :=
  if cancelled then [.calledOff]
  else if before.line.toHost.isEmpty && before.line.isClosed then [crashed "worker thread exited"]
  else (before.line.gone after.line).map Event.sight

/-- A run gets to a stage, and no other run gets anywhere. -/
def Reaches (before : Handle) (number : Nat) (stage : Stage) (after : Handle) : Prop :=
  ∃ phase : Phase, phase.stage = stage ∧ after.runs = (before.setPhase number phase).runs

variable {handle before ready after : Handle} {number other broker : Nat} {run : Run}
  {stage : Stage} {desk desk' : Desk} {receiver : String → Option Nat} {cancelled : Bool}
  {output : Aggregator} {pending : List Nat} {code : String}

/-! ## Stages of runs -/

section Reaching

theorem Reaches.stage_self (reaches : before.Reaches number stage after)
    (found : before.runs[number]? = some run) : after.stage number = stage := by
  obtain ⟨phase, rfl, runs⟩ := reaches
  rw [stage_congr runs, stage_setPhase_self found]

theorem Reaches.stage_of_ne (reaches : before.Reaches number stage after)
    (different : other ≠ number) : after.stage other = before.stage other := by
  obtain ⟨phase, -, runs⟩ := reaches
  rw [stage_congr runs, stage_setPhase_of_ne before different]

theorem reaches_setPhase (runs : ready.runs = before.runs) (number : Nat) (phase : Phase) :
    before.Reaches number phase.stage (ready.setPhase number phase) :=
  ⟨phase, rfl, by rw [setPhase, setPhase, runs]⟩

theorem reaches_finish (runs : ready.runs = before.runs) (number : Nat) (output : Aggregator) :
    before.Reaches number (.returned output.finish) (ready.finish number output) :=
  reaches_setPhase runs number (.finished output.finish)

/-- A run that stays where it is. -/
theorem reaches_same (found : before.runs[number]? = some run) (runs : after.runs = before.runs) :
    before.Reaches number run.phase.stage after := by
  refine ⟨run.phase, rfl, runs.trans (List.ext_getElem? fun other => ?_)⟩
  rw [getElem?_setPhase]
  split
  · rename_i same
    rw [same, found]
    rfl
  · rfl

/-- What one run sees is nothing to the others. -/
theorem Reaches.shows (reaches : before.Reaches other stage after)
    (found : before.runs[other]? = some run) {seen : List Sight}
    (showing : Sight.Shows (before.stage other) seen stage) (number : Nat) :
    Sight.Shows (before.stage number) (if number = other then seen else [])
      (after.stage number) := by
  split
  · rename_i same
    rw [same, reaches.stage_self found]
    exact showing
  · rename_i different
    rw [reaches.stage_of_ne different]
    exact .nothing _

end Reaching

/-! ## Runs that wait for the lock -/

section Submitting

/-- A relay that is there takes every request. -/
theorem exists_request? (isOpen : handle.line.contextOpen = true) (request : Request) :
    ∃ after, handle.request? request = some after := by
  rw [request?, Link.hostSend?, if_pos isOpen]
  exact ⟨_, rfl⟩

theorem contextOpen_of_isAlive (isAlive : handle.isAlive = true) :
    handle.line.contextOpen = true := by
  simp only [Handle.isAlive, Link.isClosed, Bool.not_not, Bool.and_eq_true] at isAlive
  exact isAlive.2

/-- A run that holds the lock submits its code, unless it sees that the worker is given up. -/
theorem shows_turnQueued
    (turned : turnQueued desk before number run = some (desk', after)) :
    ∃ next, Sight.Shows .unsubmitted (before.lookIn number) next ∧
      before.Reaches number next after := by
  simp only [turnQueued] at turned
  generalize isReady : { before with line := before.line.drain } = ready at turned
  have runs : ready.runs = before.runs := by rw [← isReady]
  have sameAlive : ready.isAlive = before.isAlive := by rw [← isReady]; rfl
  split at turned
  · contradiction
  · rename_i held
    have holds : before.lock.isHeldBy number = true := by simpa using held
    cases isAlive : before.isAlive with
    | true =>
        have alive := sameAlive.trans isAlive
        obtain ⟨sent, accepted⟩ :=
          exists_request? (contextOpen_of_isAlive alive) (.run run.code)
        rw [if_pos alive, accepted] at turned
        cases turned
        have unseen : before.lookIn number = [] := by simp [lookIn, isAlive]
        rw [unseen]
        exact ⟨_, .submit,
          reaches_setPhase ((alike_request? accepted).runs.trans runs) number (.running {} [])⟩
    | false =>
        rw [sameAlive, isAlive, if_neg Bool.false_ne_true] at turned
        cases turned
        have seen : before.lookIn number = [crashed "worker is not running"] := by
          simp [lookIn, holds, isAlive]
        have runs : ready.markDead.runs = before.runs := runs
        rw [seen]
        exact ⟨_, .refuse rfl, reaches_finish runs number _⟩

/-- A run that has to wait for the lock sees nothing. -/
theorem lookIn_of_stuck (stuck : turnQueued desk handle number run = none) :
    handle.lookIn number = [] := by
  simp only [turnQueued] at stuck
  split at stuck
  · rename_i waits
    have lacks : handle.lock.isHeldBy number = false := by simpa using waits
    simp [lookIn, lacks]
  · split at stuck <;> contradiction

end Submitting

/-! ## Runs that hear the worker -/

section Running

theorem looks_of_event {event : Event} {rest : List Event}
    (queue : before.line.toHost = event :: rest) (left : after.line.toHost = rest) :
    looks false before after = [event.sight] := by
  have taken : before.line.gone after.line = [event] := Link.gone_eq (by rw [queue, left]; rfl)
  simp [looks, queue, taken]

theorem looks_of_waiting (silent : before.line.toHost = [])
    (isOpen : before.line.contextOpen = true) : looks false before after = [] := by
  simp [looks, silent, isOpen, Link.isClosed, Link.gone]

/-- A run takes in the first event on the line. -/
theorem shows_receive (runs : ready.runs = before.runs) (found : before.runs[number]? = some run)
    (running : run.phase = .running output pending) (receiver : String → Option Nat) (desk : Desk)
    (broker : Nat) (event : Event) :
    ∃ next, Sight.Shows (.hearing output) [event.sight] next ∧
      before.Reaches number next
        (receive receiver desk ready number broker output pending event).2 := by
  cases event with
  | fault reason =>
      have runs : ready.markDead.runs = before.runs := runs
      exact ⟨_, .finish rfl, reaches_finish runs number _⟩
  | message content =>
      cases content with
      | stdout data | stderr data | inputRequest prompt =>
          exact ⟨_, .goOn rfl, reaches_setPhase runs number (.running _ _)⟩
      | done | error data => exact ⟨_, .finish rfl, reaches_finish runs number _⟩
      | ready =>
          have stays := reaches_same found runs
          rw [running] at stays
          exact ⟨_, .goOn rfl, stays⟩

theorem line_receive (receiver : String → Option Nat) (desk : Desk) (handle : Handle)
    (number broker : Nat) (output : Aggregator) (pending : List Nat) (event : Event) :
    (receive receiver desk handle number broker output pending event).2.line = handle.line := by
  cases event with
  | fault reason => rfl
  | message content => cases content <;> rfl

/-- A relay that is there takes an answer. -/
theorem reaches_answer (isOpen : before.line.contextOpen = true)
    (answered : answer desk before number broker output pending = some (desk', after)) :
    before.Reaches number (.hearing output) after := by
  cases pending with
  | nil => contradiction
  | cons ticket rest =>
      obtain ⟨value, -, answered⟩ := Option.bind_eq_some_iff.mp answered
      obtain ⟨sent, accepted⟩ := exists_request? isOpen (.inputResponse value)
      rw [accepted] at answered
      cases answered
      exact reaches_setPhase (alike_request? accepted).runs number (.running output rest)

/-- What a run finds in a turn. -/
inductive Finds (receiver : String → Option Nat) (cancelled : Bool) (desk : Desk)
    (before : Handle) (number broker : Nat) (output : Aggregator) (pending : List Nat) :
    Option (Desk × Handle) → Prop where
  /-- Its end, which is no event. -/
  | ends {desk' : Desk} {ready : Handle} {sight : Sight} (last : sight.isLast = true)
      (runs : ready.runs = before.runs) (sees : ∀ after, looks cancelled before after = [sight]) :
      Finds receiver cancelled desk before number broker output pending
        (some (desk', ready.finish number (Sight.addTo output sight)))
  | event {event : Event} {rest : List Event} (goesOn : cancelled = false)
      (queue : before.line.toHost = event :: rest) :
      Finds receiver cancelled desk before number broker output pending
        (some (receive receiver desk { before with line := { before.line with toHost := rest } }
          number broker output pending event))
  | nothing (sees : ∀ after, looks cancelled before after = [])
      (isOpen : before.line.contextOpen = true) :
      Finds receiver cancelled desk before number broker output pending
        (answer desk before number broker output pending)

/-- A run whose worker crashes ends with what is to be seen of it. -/
theorem crash_eq (desk : Desk) (handle : Handle) (number broker : Nat) (output : Aggregator)
    (reason : String) :
    crash desk handle number broker output reason =
      (desk.modify broker Broker.reset,
        handle.markDead.finish number (Sight.addTo output (crashed reason))) :=
  rfl

/-- A run that is called off ends with nothing more to be seen. -/
theorem conclude_eq (desk : Desk) (handle : Handle) (number broker : Nat) (output : Aggregator) :
    conclude desk handle number broker output =
      (desk.modify broker Broker.reset, handle.finish number (Sight.addTo output .calledOff)) :=
  rfl

theorem finds_turnRunning (receiver : String → Option Nat) (cancelled : Bool) (desk : Desk)
    (before : Handle) (number broker : Nat) (output : Aggregator) (pending : List Nat) :
    Finds receiver cancelled desk before number broker output pending
      (turnRunning receiver cancelled desk before number broker output pending) := by
  rw [turnRunning]
  cases cancelled with
  | true =>
      have isLast : Sight.calledOff.isLast = true := rfl
      rw [if_pos rfl, conclude_eq]
      exact .ends isLast before.alike_terminate.runs fun _ => rfl
  | false =>
      rw [if_neg Bool.false_ne_true]
      split
      · rename_i event line received
        obtain ⟨rest, queue, rfl⟩ := Link.hostReceive_message received
        exact .event rfl queue
      · rename_i received
        obtain ⟨silent, gone⟩ := Link.hostReceive_gone received
        have isLast : (crashed "worker thread exited").isLast = true := rfl
        have runs : before.markDead.runs = before.runs := rfl
        rw [crash_eq]
        exact .ends isLast runs fun after => by simp [looks, silent, gone, Link.isClosed]
      · rename_i received
        obtain ⟨silent, isOpen⟩ := Link.hostReceive_waiting received
        exact .nothing (fun after => looks_of_waiting silent isOpen) isOpen

/-- What is seen in a turn of a run decides how far it gets. -/
theorem shows_turnRunning (found : before.runs[number]? = some run)
    (running : run.phase = .running output pending)
    (turned : turnRunning receiver cancelled desk before number broker output pending =
      some (desk', after)) :
    ∃ next, Sight.Shows (.hearing output) (looks cancelled before after) next ∧
      before.Reaches number next after := by
  have finds := finds_turnRunning receiver cancelled desk before number broker output pending
  rw [turned] at finds
  generalize isTurned : some (desk', after) = turned at finds
  cases finds with
  | ends last runs sees =>
      cases isTurned
      rw [sees]
      exact ⟨_, .finish last, reaches_finish runs number _⟩
  | @event event rest goesOn queue =>
      have isAfter : after = _ := congrArg Prod.snd (Option.some.inj isTurned)
      have left : after.line.toHost = rest := by rw [isAfter, line_receive]
      rw [goesOn, looks_of_event queue left, isAfter]
      have runs : ({ before with line := { before.line with toHost := rest } } : Handle).runs =
        before.runs := rfl
      exact shows_receive runs found running receiver desk broker event
  | nothing sees isOpen =>
      rw [sees]
      exact ⟨_, .nothing _, reaches_answer isOpen isTurned.symm⟩

/-- A run that has to wait sees nothing. -/
theorem looks_of_stuck
    (stuck : turnRunning receiver cancelled desk before number broker output pending = none)
    (after : Handle) : looks cancelled before after = [] := by
  have finds := finds_turnRunning receiver cancelled desk before number broker output pending
  rw [stuck] at finds
  generalize isStuck : (none : Option (Desk × Handle)) = turned at finds
  cases finds with
  | ends | event => contradiction
  | nothing sees => exact sees after

/-- The result of a run is that of its stage. -/
theorem result?_eq_stage (handle : Handle) (number : Nat) :
    handle.result? number = (handle.stage number).result? := by
  rw [result?_eq, stage]
  cases handle.phase? number with
  | none => rfl
  | some phase => cases phase <;> rfl

end Running

/-! ## Histories -/

/-- What a run sees in a move. -/
def sees (handle : Handle) (number : Nat) : Move → List Sight
  | .run _ broker code =>
    if number = handle.runs.length then (handle.ask broker code).lookIn number else []
  | .turn receiver cancelled desk run =>
    if number = run then
      match handle.phase? run with
      | some .queued => handle.lookIn run
      | some (.running _ _) =>
        looks cancelled handle (handle.move (.turn receiver cancelled desk run))
      | _ => []
    else []
  | _ => []

/-- What a run sees in several moves. -/
def sights (handle : Handle) (number : Nat) : List Move → List Sight
  | [] => []
  | move :: moves => handle.sees number move ++ (handle.move move).sights number moves

section Histories

/-- A new run sees what there is to be seen if it holds the lock at once. -/
theorem shows_run (handle : Handle) (number : Nat) (desk : Desk) (broker : Nat) (code : String) :
    Sight.Shows (handle.stage number) (handle.sees number (.run desk broker code))
      ((handle.run desk broker code).2.1.stage number) := by
  have found := handle.getElem?_ask broker code
  have asks : (handle.ask broker code).stage number = handle.stage number := by
    by_cases isNew : number = handle.runs.length
    · rw [isNew, stage_length]
      exact stage_of_getElem? found
    · exact (handle.spares_ask broker code).stage number isNew
  rw [← asks, sees]
  change Sight.Shows _ _ (((turnQueued desk (handle.ask broker code) handle.runs.length
    { code, broker }).getD (desk, handle.ask broker code)).2.stage number)
  cases turned : turnQueued desk (handle.ask broker code) handle.runs.length { code, broker } with
  | none =>
      have unseen := lookIn_of_stuck turned
      split
      · rename_i isNew
        rw [isNew, unseen]
        exact .nothing _
      · exact .nothing _
  | some next =>
      obtain ⟨stage, showing, reaches⟩ := shows_turnQueued turned
      have unsubmitted : (handle.ask broker code).stage handle.runs.length = .unsubmitted :=
        stage_of_getElem? found
      rw [← unsubmitted] at showing
      have shown := reaches.shows found showing number
      split
      · rename_i isNew
        rw [isNew] at shown ⊢
        rwa [if_pos rfl] at shown
      · rename_i isOld
        rwa [if_neg isOld] at shown

/-- Where nothing is done and nothing seen, every run is as far as before. -/
theorem shows_idle {move : Move} (stays : handle.move move = handle)
    (unseen : handle.sees number move = []) :
    Sight.Shows (handle.stage number) (handle.sees number move)
      ((handle.move move).stage number) := by
  rw [stays, unseen]
  exact .nothing _

/-- A run sees what there is to be seen in its own turns only. -/
theorem shows_turn (handle : Handle) (number : Nat) (receiver : String → Option Nat)
    (cancelled : Bool) (desk : Desk) (other : Nat) :
    Sight.Shows (handle.stage number) (handle.sees number (.turn receiver cancelled desk other))
      ((handle.move (.turn receiver cancelled desk other)).stage number) := by
  have idle (stuck : handle.turn receiver cancelled desk other = none) :
      handle.move (.turn receiver cancelled desk other) = handle := by
    rw [move, stuck, Option.getD_none]
  cases found : handle.runs[other]? with
  | none =>
      apply shows_idle (idle (by rw [turn, found]; rfl))
      rw [sees, phase?, found, Option.map_none, ite_self]
  | some run =>
      obtain ⟨code, broker, phase⟩ := run
      have isStage := stage_of_getElem? found
      cases phase with
      | queued =>
          have turns : handle.turn receiver cancelled desk other =
              turnQueued desk handle other ⟨code, broker, .queued⟩ := by rw [turn, found]; rfl
          have seen : handle.sees number (.turn receiver cancelled desk other) =
              if number = other then handle.lookIn other else [] := by
            rw [sees, phase?, found, Option.map_some]
          cases turned : turnQueued desk handle other ⟨code, broker, .queued⟩ with
          | none =>
              apply shows_idle (idle (turns.trans turned))
              rw [seen, lookIn_of_stuck turned, ite_self]
          | some next =>
              obtain ⟨stage, showing, reaches⟩ := shows_turnQueued turned
              rw [seen, move, turns, turned]
              exact reaches.shows found (isStage ▸ showing) number
      | running output pending =>
          have turns : handle.turn receiver cancelled desk other =
              turnRunning receiver cancelled desk handle other broker output pending := by
            rw [turn, found]
            rfl
          have seen : handle.sees number (.turn receiver cancelled desk other) =
              if number = other then
                looks cancelled handle (handle.move (.turn receiver cancelled desk other))
              else [] := by
            rw [sees, phase?, found, Option.map_some]
          cases turned : turnRunning receiver cancelled desk handle other broker output pending with
          | none =>
              apply shows_idle (idle (turns.trans turned))
              rw [seen, looks_of_stuck turned, ite_self]
          | some next =>
              obtain ⟨stage, showing, reaches⟩ := shows_turnRunning found rfl turned
              rw [seen, move, turns, turned]
              exact reaches.shows found (isStage ▸ showing) number
      | finished result | abandoned =>
          apply shows_idle (idle (by rw [turn, found]; rfl))
          rw [sees, phase?, found, Option.map_some, ite_self]

/-- A run that goes away sees nothing, and neither do the others. -/
theorem shows_abandon (handle : Handle) (number : Nat) (desk : Desk) (other : Nat) :
    Sight.Shows (handle.stage number) [] ((handle.abandon desk other).2.stage number) := by
  have leaves {run : Run} (found : handle.runs[other]? = some run)
      (unended : run.phase.stage.result? = none) {after : Handle}
      (runs : after.runs = (handle.setPhase other .abandoned).runs) :
      Sight.Shows (handle.stage number) [] (after.stage number) := by
    have reaches : handle.Reaches other .silent after := ⟨.abandoned, rfl, runs⟩
    have silence : Sight.Shows (handle.stage other) [] .silent :=
      .silence (by rwa [stage_of_getElem? found])
    have shows := reaches.shows found silence number
    rwa [ite_self] at shows
  rw [abandon]
  cases found : handle.runs[other]? with
  | none => exact .nothing _
  | some run =>
      obtain ⟨code, broker, phase⟩ := run
      cases phase with
      | queued | running output pending => exact leaves found rfl rfl
      | finished result | abandoned => exact .nothing _

/-- What a run sees in a move decides how far it gets. -/
theorem shows_move (handle : Handle) (number : Nat) (move : Move) :
    Sight.Shows (handle.stage number) (handle.sees number move)
      ((handle.move move).stage number) := by
  have stays {after : Handle} (runs : after.runs = handle.runs) :
      Sight.Shows (handle.stage number) [] (after.stage number) := by
    rw [stage_congr runs]
    exact .nothing _
  cases move with
  | launched outcome =>
      apply stays
      simp only [Handle.move]
      split
      · rename_i launching
        exact (stirs_launched launching outcome).runs
      · rfl
  | request =>
      apply stays
      rw [Handle.move]
      cases turned : handle.turnRequest with
      | none => rfl
      | some after => exact (stirs_turnRequest turned).runs
  | message =>
      apply stays
      rw [Handle.move]
      cases turned : handle.turnMessage with
      | none => rfl
      | some after => exact (stirs_turnMessage turned).runs
  | interpreter act => exact stays rfl
  | run desk broker code => exact shows_run handle number desk broker code
  | turn receiver cancelled desk other =>
      exact shows_turn handle number receiver cancelled desk other
  | abandon desk other => exact shows_abandon handle number desk other
  | terminate => exact stays handle.stirs_terminate.runs
  | drop => exact stays handle.stirs_drop.runs

/-- A run has seen what made it get so far. -/
theorem fits_moved {seen : List Sight} (fits : Sight.Fits seen (handle.stage number))
    (moves : List Move) :
    Sight.Fits (seen ++ handle.sights number moves) ((handle.moved moves).stage number) := by
  induction moves generalizing handle seen with
  | nil =>
      rw [sights, List.append_nil]
      exact fits
  | cons move moves ih =>
      rw [sights, ← List.append_assoc, moved_cons]
      exact ih (fits.shows (shows_move handle number move))

/-- A run returns what is made of what it saw. -/
theorem isMadeOf_moved (new : handle.runs = []) (moves : List Move) (number : Nat) :
    Sight.IsMadeOf ((handle.moved moves).result? number) (handle.sights number moves) := by
  rw [result?_eq_stage]
  have unsubmitted : Sight.Fits [] (handle.stage number) := by
    rw [stage, phase?, new]
    rfl
  exact (fits_moved unsubmitted moves).isMadeOf

end Histories

end Handle

end Polyglot.Worker
