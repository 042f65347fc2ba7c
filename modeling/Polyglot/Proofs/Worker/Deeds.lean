import Polyglot.Proofs.Channel.Hearing
import Polyglot.Proofs.Worker.Run

/-!
# What a turn of a run on a worker comes to

Whatever a run does in a turn, it submits its code to the relay, drops what is on its way to
the host, takes in the first event of the line, or does nothing that the interpreter or
another run could tell.  Everything else that happens to a worker leaves its runs alone, but
for those whose callers go away.
-/

namespace Polyglot.Worker

/-- How far a run is that stands there. -/
def Phase.stage : Phase → Stage
  | .queued => .unsubmitted
  | .running output _ => .hearing output
  | .finished result => .returned result
  | .abandoned => .silent

theorem Run.goesOn_of_queued (run : Run) (queued : run.phase = .queued) (result : RunResult) :
    run.phase ≠ .finished result := by
  rw [queued]
  exact nofun

theorem Run.goesOn_of_running (run : Run) {output : Aggregator} {pending : List Nat}
    (running : run.phase = .running output pending) (result : RunResult) :
    run.phase ≠ .finished result := by
  rw [running]
  exact nofun

namespace Handle

/-- How far a run is; one that was not asked for has submitted nothing. -/
def stage (handle : Handle) (number : Nat) : Stage :=
  (handle.phase? number).elim .unsubmitted Phase.stage

/-- The code of a run. -/
def code? (handle : Handle) (number : Nat) : Option String :=
  (handle.runs[number]?).map (·.code)

/-- A run that is over hears nothing. -/
theorem silent_finished (output : Aggregator) :
    ∀ other, (Phase.finished output.finish).stage ≠ .hearing other :=
  fun _ hears => by contradiction

/-- Whoever hears a worker holds its lock. -/
def Listens (handle : Handle) : Prop :=
  ∀ number output, handle.stage number = .hearing output → handle.lock.holder = some number

/-- What becomes of the runs of a worker: none is forgotten, and one that is over stays
what it is. -/
def Keeps (before after : Handle) : Prop :=
  ∀ (number : Nat) (run : Run), before.runs[number]? = some run →
    ∃ next, after.runs[number]? = some next ∧ next.code = run.code ∧
      ∀ result, run.phase = .finished result → next.phase = .finished result

/-- What one run does is nothing to the others, and only the host's half of the worker does
anything. -/
structure Spares (before after : Handle) (number : Nat) : Prop where
  stage : ∀ other, other ≠ number → after.stage other = before.stage other
  keeps : before.Keeps after
  listens : before.Listens → after.Listens
  relay : after.relay = before.relay
  interpreter : after.interpreter = before.interpreter
  hostOpen : after.line.hostOpen = before.line.hostOpen

/-- Nobody but a run hears anything. -/
def HearsOnly (handle : Handle) (number : Nat) : Prop :=
  ∀ other output, handle.stage other = .hearing output → other = number

/-- What a run does that the interpreter and the other runs cannot tell. -/
structure Pauses (before : Handle) (number : Nat) (after : Handle) : Prop where
  spares : before.Spares after number
  turns : (before.stage number).Turns (after.stage number)
  strand : after.strand = before.strand
  codes : after.codes = before.codes

/-- What a run does in a turn. -/
inductive Deed (before : Handle) (number : Nat) (after : Handle) : Prop where
  | pause (pauses : before.Pauses number after)
  /-- What is on its way is dropped, but the code cannot be submitted. -/
  | drop {gone : List Utterance} (spares : before.Spares after number)
      (alone : before.HearsOnly number) (was : before.stage number = .unsubmitted)
      (turns : Stage.Turns .unsubmitted (after.stage number))
      (voice : before.strand.voice = gone ++ after.strand.voice)
      (codes : after.codes = before.codes)
  /-- What is on its way is dropped, and the code is submitted. -/
  | submit {gone : List Utterance} {code : String} (spares : before.Spares after number)
      (alone : before.HearsOnly number) (stage : after.stage number = .hearing {})
      (isCode : after.code? number = some code)
      (voice : before.strand.voice = gone ++ after.strand.voice)
      (codes : after.codes = before.codes ++ [code])
  /-- The first message on the line is taken in. -/
  | hear {output : Aggregator} {utterance : Utterance} (spares : before.Spares after number)
      (alone : before.HearsOnly number) (was : before.stage number = .hearing output)
      (stage : after.stage number = .hear output utterance)
      (voice : before.strand.voice = utterance :: after.strand.voice)
      (codes : after.codes = before.codes)

/-- What becomes of the runs of a worker while none takes a turn: at most a caller goes away. -/
structure Lingers (before after : Handle) : Prop where
  length : after.runs.length = before.runs.length
  keeps : before.Keeps after
  stage : ∀ number, after.stage number = before.stage number ∨ after.stage number = .silent
  listens : before.Listens → after.Listens

/-- What happens to a worker while none of its runs takes a turn.  What the host passes over
before it lends the worker out is no loss, as nothing was said by then. -/
structure Lets (before after : Handle) : Prop where
  lingers : before.Lingers after
  bare : (before.relay = .launching → before.interpreter = none) →
    after.relay = .launching → after.interpreter = none
  fades : (before.runs = [] → before.strand.voice = []) → before.strand.Fades after.strand

variable {handle middle after : Handle} {number other : Nat} {run : Run} {phase : Phase}
  {desk desk' : Desk}

/-! ## The runs of a worker -/

section Runs

theorem stage_congr (runs : after.runs = handle.runs) : after.stage = handle.stage := by
  funext number
  simp only [stage, phase?, runs]

theorem stage_of_getElem? (found : handle.runs[number]? = some run) :
    handle.stage number = run.phase.stage := by
  rw [stage, phase?, found, Option.map_some, Option.elim_some]

theorem stage_of_result? {result : RunResult} (isOver : handle.result? number = some result) :
    handle.stage number = .returned result := by
  simp only [result?] at isOver
  split at isOver
  · rename_i finished found
    cases isOver
    rw [stage, found]
    rfl
  · contradiction

theorem keeps_congr (runs : after.runs = handle.runs) : handle.Keeps after :=
  fun _ run found => ⟨run, runs ▸ found, rfl, fun _ => id⟩

theorem Keeps.trans (left : handle.Keeps middle) (right : middle.Keeps after) :
    handle.Keeps after := by
  intro number run found
  obtain ⟨next, foundNext, sameCode, lasts⟩ := left number run found
  obtain ⟨final, foundFinal, sameFinal, lastsFinal⟩ := right number next foundNext
  exact ⟨final, foundFinal, sameFinal.trans sameCode, fun result isOver =>
    lastsFinal result (lasts result isOver)⟩

theorem Keeps.code? (keeps : handle.Keeps after) {code : String}
    (isCode : handle.code? number = some code) : after.code? number = some code := by
  obtain ⟨run, found, rfl⟩ := Option.map_eq_some_iff.mp isCode
  obtain ⟨next, foundNext, sameCode, -⟩ := keeps number run found
  rw [Handle.code?, foundNext, Option.map_some, sameCode]

/-- A run that has a result keeps it. -/
theorem Keeps.returned (keeps : handle.Keeps after) {result : RunResult}
    (isOver : handle.stage number = .returned result) : after.stage number = .returned result := by
  cases found : handle.runs[number]? with
  | none => simp [stage, phase?, found] at isOver
  | some run =>
      rw [stage_of_getElem? found] at isOver
      have finished : run.phase = .finished result := by
        cases phase : run.phase with
        | finished other =>
            rw [phase] at isOver
            cases isOver
            rfl
        | queued => rw [phase] at isOver; contradiction
        | running output pending => rw [phase] at isOver; contradiction
        | abandoned => rw [phase] at isOver; contradiction
      obtain ⟨next, foundNext, -, lasts⟩ := keeps number run found
      rw [stage_of_getElem? foundNext, lasts result finished]
      rfl

theorem Keeps.nil (keeps : handle.Keeps after) (none : after.runs = []) : handle.runs = [] := by
  cases runs : handle.runs with
  | nil => rfl
  | cons run rest =>
      obtain ⟨next, found, -⟩ := keeps 0 run (by rw [runs]; rfl)
      rw [none] at found
      contradiction

theorem getElem?_setPhase (handle : Handle) (number other : Nat) (next : Phase) :
    (handle.setPhase number next).runs[other]? =
      if other = number then (handle.runs[other]?).map fun run => { run with phase := next }
      else handle.runs[other]? := by
  by_cases same : other = number
  · subst same
    simp [setPhase]
  · have different : ¬number = other := fun equal => same equal.symm
    simp [setPhase, same, different]

theorem stage_setPhase_self (found : handle.runs[number]? = some run) (next : Phase) :
    (handle.setPhase number next).stage number = next.stage := by
  rw [stage_of_getElem? (by rw [getElem?_setPhase, if_pos rfl, found, Option.map_some])]

theorem stage_setPhase_of_ne (handle : Handle) (different : other ≠ number) (next : Phase) :
    (handle.setPhase number next).stage other = handle.stage other := by
  simp only [stage, phase?, getElem?_setPhase, if_neg different]

/-- A run that is not over gets somewhere. -/
theorem keeps_setPhase (found : handle.runs[number]? = some run)
    (goesOn : ∀ result, run.phase ≠ .finished result) (next : Phase) :
    handle.Keeps (handle.setPhase number next) := by
  intro other same foundOther
  rw [getElem?_setPhase]
  split
  · rename_i isNumber
    subst isNumber
    rw [found] at foundOther
    cases foundOther
    exact ⟨{ run with phase := next }, by rw [found, Option.map_some], rfl,
      fun result isOver => absurd isOver (goesOn result)⟩
  · exact ⟨same, foundOther, rfl, fun _ => id⟩

/-- The one who holds the lock hears the worker on its own. -/
theorem Listens.hearsOnly (listens : handle.Listens)
    (held : handle.lock.holder = some number) : handle.HearsOnly number := by
  intro other output hears
  have holds := listens other output hears
  rw [held] at holds
  exact (Option.some.inj holds).symm

/-- The one who holds the lock goes on. -/
theorem Listens.setPhase (listens : handle.Listens) (held : handle.lock.holder = some number)
    (next : Phase) : (handle.setPhase number next).Listens := by
  intro other output hears
  by_cases same : other = number
  · rw [same]
    exact held
  · rw [stage_setPhase_of_ne handle same] at hears
    exact listens other output hears

/-- A run leaves the lock and hears nothing any more. -/
theorem Listens.leave (listens : handle.Listens) (found : handle.runs[number]? = some run)
    {next : Phase} (silent : ∀ output, next.stage ≠ .hearing output) :
    Listens { handle.setPhase number next with lock := handle.lock.leave number } := by
  intro other output hears
  have hearsBefore : (handle.setPhase number next).stage other = .hearing output := hears
  by_cases same : other = number
  · rw [same, stage_setPhase_self found] at hearsBefore
    exact absurd hearsBefore (silent output)
  · rw [stage_setPhase_of_ne handle same] at hearsBefore
    have holds := listens other output hearsBefore
    have unheld : handle.lock.isHeldBy number = false := by
      simpa [Lock.isHeldBy, holds] using same
    simp [Lock.leave, unheld, holds]

end Runs

/-! ## The strand of a worker -/

section Strands

theorem Spares.trans (left : handle.Spares middle number) (right : middle.Spares after number) :
    handle.Spares after number where
  stage other different := (right.stage other different).trans (left.stage other different)
  keeps := left.keeps.trans right.keeps
  listens listens := right.listens (left.listens listens)
  relay := right.relay.trans left.relay
  interpreter := right.interpreter.trans left.interpreter
  hostOpen := right.hostOpen.trans left.hostOpen

/-- The interpreter can say as much as before, and as much is queued for it. -/
theorem Spares.strand (spares : handle.Spares after number) {codes : List String}
    (submitted : after.codes = handle.codes ++ codes) :
    after.strand.attached = handle.strand.attached ∧
      after.strand.queued = handle.strand.queued + codes.length := by
  constructor
  · simp only [Handle.strand, isAttached, spares.relay, spares.interpreter, spares.hostOpen]
  · simp only [Handle.strand, submitted, forwarded, spares.interpreter, List.length_append]
    omega

/-- Only the line to the relay has changed, or whether the worker was given up. -/
structure Alike (before after : Handle) : Prop where
  runs : after.runs = before.runs
  lock : after.lock = before.lock
  relay : after.relay = before.relay
  interpreter : after.interpreter = before.interpreter
  hostOpen : after.line.hostOpen = before.line.hostOpen

theorem Alike.spares (alike : handle.Alike after) (number : Nat) :
    handle.Spares after number where
  stage other _ := congrFun (stage_congr alike.runs) other
  keeps := keeps_congr alike.runs
  listens listens := by
    intro other output hears
    rw [stage_congr alike.runs] at hears
    rw [alike.lock]
    exact listens other output hears
  relay := alike.relay
  interpreter := alike.interpreter
  hostOpen := alike.hostOpen

theorem alike_request? {request : Request} (sent : handle.request? request = some after) :
    handle.Alike after := by
  simp only [request?, Link.hostSend?] at sent
  obtain ⟨line, accepted, sent⟩ := Option.bind_eq_some_iff.mp sent
  split at accepted
  · cases accepted
    cases sent
    exact ⟨rfl, rfl, rfl, rfl, rfl⟩
  · contradiction

theorem alike_terminate (handle : Handle) : handle.Alike handle.terminate := by
  simp only [terminate]
  split
  · cases sent : handle.markDead.request? .terminate with
    | none => exact ⟨rfl, rfl, rfl, rfl, rfl⟩
    | some after =>
        have alike := alike_request? sent
        exact ⟨alike.runs, alike.lock, alike.relay, alike.interpreter, alike.hostOpen⟩
  · exact ⟨rfl, rfl, rfl, rfl, rfl⟩

/-- The one who holds the lock goes on. -/
theorem spares_setPhase (found : handle.runs[number]? = some run)
    (goesOn : ∀ result, run.phase ≠ .finished result) (held : handle.lock.holder = some number)
    (next : Phase) : handle.Spares (handle.setPhase number next) number where
  stage _ different := stage_setPhase_of_ne handle different next
  keeps := keeps_setPhase found goesOn next
  listens listens := listens.setPhase held next
  relay := rfl
  interpreter := rfl
  hostOpen := rfl

/-- A run that is not over leaves the lock. -/
theorem spares_leave (found : handle.runs[number]? = some run)
    (goesOn : ∀ result, run.phase ≠ .finished result) {next : Phase}
    (silent : ∀ output, next.stage ≠ .hearing output) :
    handle.Spares { handle.setPhase number next with lock := handle.lock.leave number } number where
  stage _ different := stage_setPhase_of_ne handle different next
  keeps := keeps_setPhase found goesOn next
  listens listens := listens.leave found silent
  relay := rfl
  interpreter := rfl
  hostOpen := rfl

/-- What was done after nothing that could be told was done in one go. -/
theorem Deed.of_alike (deed : middle.Deed number after) (spares : handle.Spares middle number)
    (same : middle.stage number = handle.stage number) (strand : middle.strand = handle.strand)
    (codes : middle.codes = handle.codes) : handle.Deed number after := by
  have stage (other : Nat) : middle.stage other = handle.stage other := by
    by_cases isNumber : other = number
    · rw [isNumber, same]
    · exact spares.stage other isNumber
  have alone (only : middle.HearsOnly number) : handle.HearsOnly number := by
    intro other output hears
    exact only other output ((stage other).trans hears)
  cases deed with
  | pause pauses =>
      exact .pause ⟨spares.trans pauses.spares, same ▸ pauses.turns, pauses.strand.trans strand,
        pauses.codes.trans codes⟩
  | drop sparesOn only was turns voice queued =>
      exact .drop (spares.trans sparesOn) (alone only) (same ▸ was) turns (strand ▸ voice)
        (queued.trans codes)
  | submit sparesOn only isStage isCode voice queued =>
      exact .submit (spares.trans sparesOn) (alone only) isStage isCode (strand ▸ voice)
        (codes ▸ queued)
  | hear sparesOn only was isStage voice queued =>
      exact .hear (spares.trans sparesOn) (alone only) (same ▸ was) isStage (strand ▸ voice)
        (queued.trans codes)

end Strands

/-! ## Submitting code -/

section Submit

variable {code : String}

theorem isApology_crashed (reason : String) :
    ∀ notice ∈ [(Stream.stderr, s!"Worker crashed: {reason}")], IsApology notice := by
  intro notice member
  rw [List.mem_singleton.mp member]
  exact .crashed reason

/-- The host drops what is on its way to it. -/
theorem voice_drain (handle : Handle) :
    handle.strand.voice = voiceOf handle.messages ++
      (strand { handle with line := handle.line.drain }).voice :=
  voiceOf_append handle.messages handle.unrelayed

theorem alike_drain (handle : Handle) : handle.Alike { handle with line := handle.line.drain } :=
  ⟨rfl, rfl, rfl, rfl, rfl⟩

/-- What a request to the relay adds is not on its way to the host. -/
theorem voice_request? {request : Request} (sent : handle.request? request = some after) :
    after.strand.voice = handle.strand.voice := by
  simp only [request?, Link.hostSend?] at sent
  obtain ⟨line, accepted, sent⟩ := Option.bind_eq_some_iff.mp sent
  split at accepted
  · cases accepted
    cases sent
    rfl
  · contradiction

theorem isApology_notRunning :
    IsApology (.stderr, "Worker crashed: worker is not running") :=
  .crashed "worker is not running"

theorem stage_finish (found : handle.runs[number]? = some run) (output : Aggregator) :
    (handle.finish number output).stage number = .returned output.finish :=
  stage_setPhase_self found (.finished output.finish)

/-- A run that waits for the lock takes a turn. -/
theorem deed_turnQueued (listens : handle.Listens) (found : handle.runs[number]? = some run)
    (queued : run.phase = .queued)
    (turned : turnQueued desk handle number run = some (desk', after)) :
    handle.Deed number after := by
  have goesOn := run.goesOn_of_queued queued
  have was : handle.stage number = .unsubmitted := by rw [stage_of_getElem? found, queued]; rfl
  simp only [turnQueued] at turned
  split at turned
  · contradiction
  · rename_i held
    have holds : handle.lock.holder = some number := by simpa [Lock.isHeldBy] using held
    have only := listens.hearsOnly holds
    split at turned
    · rename_i next sent
      have sentRun : request? { handle with line := handle.line.drain } (.run run.code) =
          some next := by
        split at sent
        · exact sent
        · contradiction
      cases turned
      have alike := alike_request? sentRun
      have foundNext : next.runs[number]? = some run := by rw [alike.runs]; exact found
      have heldNext : next.lock.holder = some number := by rw [alike.lock]; exact holds
      have spares := (handle.alike_drain.spares number).trans (alike.spares number)
      have sparesOn := spares.trans (spares_setPhase foundNext goesOn heldNext (.running {} []))
      have isCode : handle.code? number = some run.code := by rw [code?, found, Option.map_some]
      have voice := handle.voice_drain
      rw [← voice_request? sentRun] at voice
      exact .submit sparesOn only (stage_setPhase_self foundNext _) (sparesOn.keeps.code? isCode)
        voice (codes_request? sentRun)
    · cases turned
      generalize isDead : markDead { handle with line := handle.line.drain } = dead
      have alike : handle.Alike dead := isDead ▸ ⟨rfl, rfl, rfl, rfl, rfl⟩
      have foundDead : dead.runs[number]? = some run := by rw [alike.runs]; exact found
      have spares := (alike.spares number).trans (spares_leave foundDead goesOn
        (silent_finished (Aggregator.push {} .stderr "Worker crashed: worker is not running")))
      have voice : handle.strand.voice = voiceOf handle.messages ++ dead.strand.voice := by
        rw [← isDead]
        exact handle.voice_drain
      have refused := Stage.Turns.refuse isApology_notRunning
      rw [Aggregator.gather, List.foldl_cons, List.foldl_nil] at refused
      refine .drop spares only was ?_ voice (by rw [codes_finish, ← isDead]; rfl)
      rw [stage_finish foundDead]
      exact refused

/-- A run that was not asked for has submitted nothing. -/
theorem stage_length (handle : Handle) : handle.stage handle.runs.length = .unsubmitted := by
  simp [stage, phase?]

/-- A worker with one run more, which asks for the lock. -/
def ask (handle : Handle) (broker : Nat) (code : String) : Handle :=
  { handle with
    runs := handle.runs ++ [{ code, broker }]
    lock := handle.lock.enter handle.runs.length }

theorem getElem?_ask (handle : Handle) (broker : Nat) (code : String) :
    (handle.ask broker code).runs[handle.runs.length]? = some { code, broker } :=
  List.getElem?_concat_length

theorem spares_ask (handle : Handle) (broker : Nat) (code : String) :
    handle.Spares (handle.ask broker code) handle.runs.length where
  stage other different := by
    have same : (handle.ask broker code).runs[other]? = handle.runs[other]? := by
      by_cases inside : other < handle.runs.length
      · exact List.getElem?_append_left inside
      · have beyond : handle.runs.length < other := by omega
        simp only [ask]
        rw [List.getElem?_eq_none (Nat.le_of_lt beyond), List.getElem?_eq_none]
        simp only [List.length_append, List.length_singleton]
        omega
    simp only [Handle.stage, phase?, same]
  keeps other run found := by
    have inside := (List.getElem?_eq_some_iff.mp found).1
    exact ⟨run, (List.getElem?_append_left inside).trans found, rfl, fun _ => id⟩
  listens listens := by
    intro other output hears
    have inside : other < handle.runs.length := by
      apply Nat.lt_of_not_le
      intro beyond
      rcases Nat.lt_or_eq_of_le beyond with after | isLast
      · have nothing : (handle.ask broker code).runs[other]? = none :=
          List.getElem?_eq_none (by
            simp only [ask, List.length_append, List.length_singleton]
            omega)
        rw [Handle.stage, phase?, nothing] at hears
        contradiction
      · rw [← isLast, stage_of_getElem? (handle.getElem?_ask broker code)] at hears
        contradiction
    have same : (handle.ask broker code).runs[other]? = handle.runs[other]? :=
      List.getElem?_append_left inside
    have holds := listens other output (by simpa only [Handle.stage, phase?, same] using hears)
    simp [ask, Lock.enter, holds]
  relay := rfl
  interpreter := rfl
  hostOpen := rfl

/-- Somebody runs code on a worker. -/
theorem deed_run (listens : handle.Listens) (desk : Desk) (broker : Nat) (code : String) :
    handle.Deed handle.runs.length (handle.run desk broker code).2.1 := by
  have spares := handle.spares_ask broker code
  have asks : (handle.ask broker code).stage handle.runs.length = .unsubmitted :=
    stage_of_getElem? (handle.getElem?_ask broker code)
  have same := asks.trans handle.stage_length.symm
  change handle.Deed handle.runs.length ((turnQueued desk (handle.ask broker code)
    handle.runs.length { code, broker }).getD (desk, handle.ask broker code)).2
  cases turned : turnQueued desk (handle.ask broker code) handle.runs.length { code, broker } with
  | none => exact .pause ⟨spares, same ▸ .stay _, rfl, rfl⟩
  | some next =>
      exact (deed_turnQueued (spares.listens listens) (handle.getElem?_ask broker code) rfl
        turned).of_alike spares same rfl rfl

theorem Deed.spares (deed : handle.Deed number after) : handle.Spares after number := by
  cases deed with
  | pause pauses => exact pauses.spares
  | drop spares only was turns voice queued => exact spares
  | submit spares only stage isCode voice queued => exact spares
  | hear spares only was stage voice queued => exact spares

/-- The run of somebody's code is of that code. -/
theorem code?_run (listens : handle.Listens) (desk : Desk) (broker : Nat) (code : String) :
    (handle.run desk broker code).2.1.code? handle.runs.length = some code := by
  have asks : (handle.ask broker code).code? handle.runs.length = some code := by
    rw [code?, getElem?_ask, Option.map_some]
  change ((turnQueued desk (handle.ask broker code) handle.runs.length { code, broker }).getD
    (desk, handle.ask broker code)).2.code? _ = _
  cases turned : turnQueued desk (handle.ask broker code) handle.runs.length { code, broker } with
  | none => exact asks
  | some next =>
      have deed := deed_turnQueued ((handle.spares_ask broker code).listens listens)
        (handle.getElem?_ask broker code) rfl turned
      exact deed.spares.keeps.code? asks

end Submit

/-! ## Code that runs -/

section Running

variable {receiver : String → Option Nat} {cancelled : Bool} {broker : Nat} {output : Aggregator}
  {pending : List Nat}

/-- A run comes to its end without its last message. -/
theorem deed_cut {ready : Handle} (alike : handle.Alike ready)
    (strand : ready.strand = handle.strand) (codes : ready.codes = handle.codes)
    (found : handle.runs[number]? = some run) (running : run.phase = .running output pending)
    {notices : List Chunk} (own : ∀ notice ∈ notices, IsApology notice) :
    handle.Deed number (ready.finish number
      (notices.foldl (fun output chunk => output.push chunk.1 chunk.2) output)) := by
  have goesOn := run.goesOn_of_running running
  have foundReady : ready.runs[number]? = some run := by rw [alike.runs]; exact found
  refine .pause ⟨(alike.spares number).trans (spares_leave foundReady goesOn
    (silent_finished _)), ?_, strand, codes⟩
  rw [stage_finish foundReady, stage_of_getElem? found, running]
  exact .cut output own

/-- The worker is lost while a run goes on. -/
theorem deed_crash {ready : Handle} (alike : handle.Alike ready)
    (strand : ready.strand = handle.strand) (codes : ready.codes = handle.codes)
    (found : handle.runs[number]? = some run) (running : run.phase = .running output pending)
    (desk : Desk) (broker : Nat) (reason : String) :
    handle.Deed number (crash desk ready number broker output reason).2 := by
  have dead : handle.Alike ready.markDead :=
    ⟨alike.runs, alike.lock, alike.relay, alike.interpreter, alike.hostOpen⟩
  have deed := deed_cut dead (ready.strand_markDead.trans strand) codes found running
    (isApology_crashed reason)
  rw [List.foldl_cons, List.foldl_nil] at deed
  simp only [crash, conclude]
  exact deed

/-- A run takes in what was said first. -/
theorem deed_receive {event : Event} {rest : List Event} (broker : Nat)
    (listens : handle.Listens)
    (found : handle.runs[number]? = some run) (running : run.phase = .running output pending)
    (queue : handle.line.toHost = event :: rest) (receiver : String → Option Nat) (desk : Desk) :
    handle.Deed number (receive receiver desk
      { handle with line := { handle.line with toHost := rest } } number broker output pending
      event).2 := by
  have taken := strand_take queue
  generalize isHeard : { handle with line := { handle.line with toHost := rest } } = heard
  have codes : heard.codes = handle.codes := by rw [← isHeard]; rfl
  have alike : handle.Alike heard := isHeard ▸ ⟨rfl, rfl, rfl, rfl, rfl⟩
  rw [isHeard] at taken
  have stage : handle.stage number = .hearing output := by
    rw [stage_of_getElem? found, running]; rfl
  have held := listens number output stage
  have goesOn := run.goesOn_of_running running
  have foundHeard : heard.runs[number]? = some run := by rw [alike.runs]; exact found
  have heldHeard : heard.lock.holder = some number := by rw [alike.lock]; exact held
  have hears {next : Handle} (utterance : Utterance) (spares : heard.Spares next number)
      (strand : next.strand = heard.strand) (queued : next.codes = heard.codes)
      (isStage : next.stage number = .hear output utterance)
      (voice : voiceOf event.message?.toList = [utterance]) : handle.Deed number next := by
    refine .hear ((alike.spares number).trans spares) (listens.hearsOnly held) stage isStage ?_
      (queued.trans codes)
    rw [taken, voice, strand]
    rfl
  have goes (collected : Aggregator) (asked : List Nat) :
      heard.Spares (heard.setPhase number (.running collected asked)) number :=
    spares_setPhase foundHeard goesOn heldHeard _
  have ends (collected : Aggregator) : heard.Spares (heard.finish number collected) number :=
    spares_leave foundHeard goesOn (silent_finished collected)
  cases event with
  | fault reason =>
      have same : heard.strand = handle.strand := taken.symm
      exact deed_crash alike same codes found running desk broker reason
  | message content =>
      cases content with
      | ready =>
          have same : heard.strand = handle.strand := taken.symm
          have unchanged : heard.stage number = handle.stage number :=
            congrFun (stage_congr alike.runs) number
          exact .pause ⟨alike.spares number, unchanged ▸ .stay _, same, codes⟩
      | stdout data =>
          exact hears (.output (.stdout, data)) (goes (output.push .stdout data) pending) rfl rfl
            (stage_setPhase_self foundHeard (.running (output.push .stdout data) pending)) rfl
      | stderr data =>
          exact hears (.output (.stderr, data)) (goes (output.push .stderr data) pending) rfl rfl
            (stage_setPhase_self foundHeard (.running (output.push .stderr data) pending)) rfl
      | inputRequest prompt =>
          exact hears .request
            (goes output (pending ++ [(desk.request receiver broker prompt).2])) rfl rfl
            (stage_setPhase_self foundHeard (.running output _)) rfl
      | done =>
        exact hears (.ending none) (ends output) rfl rfl (stage_finish foundHeard output) rfl
      | error data =>
          exact hears (.ending (some (.stderr, data))) (ends (output.push .stderr data)) rfl rfl
            (stage_finish foundHeard (output.push .stderr data)) rfl

theorem deed_turnRunning (listens : handle.Listens) (found : handle.runs[number]? = some run)
    (running : run.phase = .running output pending)
    (turned : turnRunning receiver cancelled desk handle number broker output pending =
      some (desk', after)) : handle.Deed number after := by
  have goesOn := run.goesOn_of_running running
  have stage : handle.stage number = .hearing output := by
    rw [stage_of_getElem? found, running]; rfl
  have held := listens number output stage
  have lost (desk : Desk) (reason : String) : handle.Deed number
      (crash desk handle number broker output reason).2 :=
    deed_crash ⟨rfl, rfl, rfl, rfl, rfl⟩ rfl rfl found running desk broker reason
  simp only [turnRunning] at turned
  split at turned
  · cases turned
    have nothing : ∀ notice ∈ ([] : List Chunk), IsApology notice :=
      fun notice member => absurd member List.not_mem_nil
    have deed := deed_cut handle.alike_terminate handle.strand_terminate handle.codes_terminate
      found running nothing
    rw [List.foldl_nil] at deed
    exact deed
  · split at turned
    · rename_i event line received
      obtain ⟨rest, queue, rfl⟩ := Link.hostReceive_message received
      have deed := deed_receive broker listens found running queue receiver desk
      rw [Option.some.inj turned] at deed
      exact deed
    · have deed := lost desk "worker thread exited"
      rw [Option.some.inj turned] at deed
      exact deed
    · cases pending with
      | nil => contradiction
      | cons ticket rest =>
          simp only [answer] at turned
          obtain ⟨value, -, turned⟩ := Option.bind_eq_some_iff.mp turned
          split at turned
          · have deed := lost (desk.modify broker (·.take ticket)) "worker thread exited"
            rw [Option.some.inj turned] at deed
            exact deed
          · rename_i next sent
            cases turned
            have alike := alike_request? sent
            have foundNext : next.runs[number]? = some run := by rw [alike.runs]; exact found
            have heldNext : next.lock.holder = some number := by rw [alike.lock]; exact held
            have codes := codes_request? sent
            have strand : next.strand = handle.strand := strand_request? rfl sent
            refine .pause ⟨(alike.spares number).trans
              (spares_setPhase foundNext goesOn heldNext (.running output rest)), ?_,
              strand, codes.trans (List.append_nil _)⟩
            rw [stage_setPhase_self foundNext, stage]
            exact .stay _

/-- Whatever a run does in a turn is one of its deeds. -/
theorem deed_turn (listens : handle.Listens)
    (turned : handle.turn receiver cancelled desk number = some (desk', after)) :
    handle.Deed number after := by
  simp only [turn] at turned
  obtain ⟨run, found, turned⟩ := Option.bind_eq_some_iff.mp turned
  split at turned
  · rename_i queued
    exact deed_turnQueued listens found queued turned
  · rename_i output pending running
    exact deed_turnRunning listens found running turned
  · contradiction
  · contradiction

end Running

/-! ## While no run takes a turn -/

section Lingers

theorem lingers_congr (runs : after.runs = handle.runs) (lock : after.lock = handle.lock) :
    handle.Lingers after where
  length := by rw [runs]
  keeps := keeps_congr runs
  stage number := .inl (congrFun (stage_congr runs) number)
  listens listens := by
    intro number output hears
    rw [stage_congr runs] at hears
    rw [lock]
    exact listens number output hears

theorem Lingers.trans (left : handle.Lingers middle) (right : middle.Lingers after) :
    handle.Lingers after where
  length := right.length.trans left.length
  keeps := left.keeps.trans right.keeps
  stage number := by
    rcases right.stage number with same | silent
    · rw [same]
      exact left.stage number
    · exact .inr silent
  listens listens := right.listens (left.listens listens)

theorem Lingers.nil (lingers : handle.Lingers after) : after.runs = [] ↔ handle.runs = [] := by
  rw [← List.length_eq_zero_iff, lingers.length, List.length_eq_zero_iff]

theorem lingers_abandon (handle : Handle) (desk : Desk) (number : Nat) :
    handle.Lingers (handle.abandon desk number).2 := by
  have refl : handle.Lingers handle := lingers_congr rfl rfl
  simp only [abandon]
  split
  · exact refl
  · rename_i run found
    have leaves (goesOn : ∀ result, run.phase ≠ .finished result) : handle.Lingers
        { handle.setPhase number .abandoned with lock := handle.lock.leave number } := by
      have silent : ∀ output, Phase.abandoned.stage ≠ .hearing output :=
        fun output hears => by contradiction
      have spares := spares_leave found goesOn silent
      refine ⟨List.length_modify .., spares.keeps, fun other => ?_, spares.listens⟩
      by_cases same : other = number
      · rw [same]
        exact .inr (stage_setPhase_self found .abandoned)
      · exact .inl (spares.stage other same)
    split
    · rename_i queued
      exact leaves (run.goesOn_of_queued queued)
    · rename_i output pending running
      exact leaves (run.goesOn_of_running running)
    · exact refl
    · exact refl

end Lingers

section Lets

theorem Lets.refl (handle : Handle) : handle.Lets handle :=
  ⟨lingers_congr rfl rfl, id, fun _ => .refl _⟩

theorem Lets.trans (left : handle.Lets middle) (right : middle.Lets after) :
    handle.Lets after where
  lingers := left.lingers.trans right.lingers
  bare bare := right.bare (left.bare bare)
  fades silent := by
    have first := left.fades silent
    refine first.trans (right.fades fun unused => ?_)
    have voice := first.voice
    rw [silent (left.lingers.nil.mp unused)] at voice
    exact List.prefix_nil.mp voice

/-- The caller of a run goes away, and nothing is put in order. -/
theorem lets_abandon (handle : Handle) (desk : Desk) (number : Nat) :
    handle.Lets (handle.abandon desk number).2 := by
  refine ⟨handle.lingers_abandon desk number, ?_, fun _ => ?_⟩
  all_goals
    simp only [abandon]
    split
    · first | exact id | exact .refl _
    · split <;> first | exact id | exact .refl _

theorem lets_returnRelay (handle : Handle) : handle.Lets handle.returnRelay :=
  ⟨lingers_congr rfl rfl, fun _ launching => by contradiction, fun _ => fades_returnRelay handle⟩

theorem lets_launched (bare : handle.relay = .launching → handle.interpreter = none)
    (launching : handle.relay = .launching) (outcome : Except TransportError Unit) :
    handle.Lets (handle.launched outcome) := by
  have fades := fades_launched launching (bare launching) outcome
  cases outcome with
  | ok => exact ⟨lingers_congr rfl rfl, fun _ relaying => by contradiction, fun _ => fades⟩
  | error cause => exact ⟨lingers_congr rfl rfl, fun _ returned => by contradiction, fun _ => fades⟩

/-- The relay has moved, and goes on or is over. -/
theorem lets_of_fades (runs : after.runs = handle.runs) (lock : after.lock = handle.lock)
    (relay : after.relay ≠ .launching) (fades : handle.strand.Fades after.strand) :
    handle.Lets after :=
  ⟨lingers_congr runs lock, fun _ launching => absurd launching relay, fun _ => fades⟩

theorem relay_forward (handle : Handle) (relay : handle.relay ≠ .launching)
    (interpreter : Link InterpreterRequest WorkerMessage) (request : InterpreterRequest) :
    (handle.forward interpreter request).runs = handle.runs ∧
      (handle.forward interpreter request).lock = handle.lock ∧
      (handle.forward interpreter request).relay ≠ .launching := by
  simp only [forward]
  split
  · exact ⟨rfl, rfl, relay⟩
  · exact ⟨rfl, rfl, fun launching => by contradiction⟩

theorem lets_turnRequest (turned : handle.turnRequest = some after) : handle.Lets after := by
  have fades := fades_turnRequest turned
  simp only [turnRequest] at turned
  split at turned
  · contradiction
  · rename_i relaying
    have relay : handle.relay ≠ .launching := by
      intro launching
      rw [launching] at relaying
      exact relaying (by decide)
    obtain ⟨interpreter, -, turned⟩ := Option.bind_eq_some_iff.mp turned
    split at turned
    · contradiction
    · cases turned
      exact handle.lets_returnRelay
    · rename_i request line received
      cases request with
      | run code =>
          cases turned
          obtain ⟨runs, lock, goesOn⟩ :=
            relay_forward { handle with line } relay interpreter (Scan.prepareRun code)
          exact lets_of_fades runs lock goesOn fades
      | inputResponse value =>
          cases turned
          obtain ⟨runs, lock, goesOn⟩ :=
            relay_forward { handle with line } relay interpreter (.inputResponse value)
          exact lets_of_fades runs lock goesOn fades
      | terminate =>
          cases turned
          exact lets_of_fades rfl rfl (fun launching => by contradiction) fades

theorem lets_turnMessage (turned : handle.turnMessage = some after) : handle.Lets after := by
  have fades := fades_turnMessage turned
  simp only [turnMessage] at turned
  split at turned
  · contradiction
  · rename_i relaying
    have relay : handle.relay ≠ .launching := by
      intro launching
      rw [launching] at relaying
      exact relaying (by decide)
    obtain ⟨interpreter, -, turned⟩ := Option.bind_eq_some_iff.mp turned
    split at turned
    · contradiction
    · cases turned
      exact lets_of_fades rfl rfl (fun launching => by contradiction) fades
    · split at turned
      · cases turned
        exact lets_of_fades rfl rfl relay fades
      · cases turned
        exact lets_of_fades rfl rfl (fun launching => by contradiction) fades

theorem lets_terminate (handle : Handle) : handle.Lets handle.terminate := by
  have alike := handle.alike_terminate
  refine ⟨lingers_congr alike.runs alike.lock, ?_, fun _ => handle.strand_terminate ▸ .refl _⟩
  rw [alike.relay, alike.interpreter]
  exact id

theorem lets_drop (handle : Handle) : handle.Lets handle.drop :=
  ⟨handle.lets_terminate.lingers.trans (lingers_congr rfl rfl), handle.lets_terminate.bare,
    fun _ => fades_drop handle⟩

/-- Whoever waits for a worker to be ready passes over what it says first. -/
theorem lets_turnReadiness (unused : handle.runs = []) {readiness : Readiness}
    (turned : handle.turnReadiness = some (after, readiness)) : handle.Lets after := by
  have took {event : Event} {rest : List Event} (queue : handle.line.toHost = event :: rest) :
      handle.Lets { handle with line := { handle.line with toHost := rest } } := by
    refine ⟨lingers_congr rfl rfl, id, fun silent => ?_⟩
    have voice := silent unused
    rw [strand_take queue] at voice ⊢
    obtain ⟨-, rests⟩ := List.append_eq_nil_iff.mp voice
    exact ⟨Nat.le_refl _, rests ▸ List.nil_prefix, fun reaches => ⟨reaches, rests.trans voice.symm⟩⟩
  simp only [turnReadiness] at turned
  split at turned
  · contradiction
  · cases turned
    exact .refl handle
  all_goals
    rename_i received
    obtain ⟨rest, queue, rfl⟩ := Link.hostReceive_message received
    cases turned
    exact took queue

end Lets

end Handle

end Polyglot.Worker
