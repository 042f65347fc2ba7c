import Polyglot.Proofs.Worker.Dealing

/-!
# Benches

Several workers at once serve runs with the brokers of one desk.  A broker serves the runs
of one worker at a time, as many as want to; in between, anything can happen to the workers,
at the desk, and to the owners of the brokers.

A callback gives at most one value while it is called.  Whatever else it does is the same as
if it were done right after the turn in which it was called.
-/

namespace Polyglot.Worker

/-- Something that happens to a worker while none of its runs takes a turn. -/
inductive Stir where
  /-- The launch that the relay waits for has an outcome. -/
  | launched (outcome : Except TransportError Unit)
  /-- The relay takes the next request of the handle. -/
  | request
  /-- The relay takes the next message of the interpreter. -/
  | message
  /-- The interpreter does something at its end of the link. -/
  | interpreter (act : Link.Act WorkerMessage)
  /-- Somebody who waits for the worker to become ready takes its next event. -/
  | await
  /-- Somebody gives the worker up. -/
  | terminate
  /-- Nobody has the worker any more. -/
  | drop

namespace Handle

/-- The worker after something has happened to it. -/
def stir (handle : Handle) : Stir → Handle
  | .launched outcome => if handle.relay = .launching then handle.launched outcome else handle
  | .request => handle.turnRequest.getD handle
  | .message => handle.turnMessage.getD handle
  | .interpreter act => { handle with interpreter := handle.interpreter.map (·.act act) }
  | .await => handle.turnReadiness.elim handle (·.1)
  | .terminate => handle.terminate
  | .drop => handle.drop

theorem stirs_stir (handle : Handle) (stir : Stir) : handle.Stirs (handle.stir stir) := by
  cases stir with
  | launched outcome =>
      simp only [Handle.stir]
      split
      · rename_i launching
        exact stirs_launched launching outcome
      · exact .refl handle
  | request =>
      cases turned : handle.turnRequest with
      | none => simpa [Handle.stir, turned] using Stirs.refl handle
      | some after => simpa [Handle.stir, turned] using stirs_turnRequest turned
  | message =>
      cases turned : handle.turnMessage with
      | none => simpa [Handle.stir, turned] using Stirs.refl handle
      | some after => simpa [Handle.stir, turned] using stirs_turnMessage turned
  | interpreter act => exact handle.stirs_act act
  | await =>
      cases turned : handle.turnReadiness with
      | none => simpa [Handle.stir, turned] using Stirs.refl handle
      | some turn => simpa [Handle.stir, turned] using stirs_turnReadiness turned
  | terminate => exact handle.stirs_terminate
  | drop => exact handle.stirs_drop

/-- The number of the broker of a run. -/
def broker? (handle : Handle) (number : Nat) : Option Nat := handle.runs[number]?.map (·.broker)

/-- Whether a run that uses a broker goes on. -/
def uses (handle : Handle) (broker : Nat) : Bool :=
  handle.runs.any fun run => run.broker = broker && run.phase.goesOn

/-- What a run holds of a broker; another broker it holds nothing of. -/
def holdingOf (handle : Handle) (broker number : Nat) : Holding :=
  match handle.runs[number]? with
  | none => .before
  | some run => if run.broker = broker then run.phase.holding else .before

end Handle

/-- Workers whose runs use the brokers of a desk. -/
structure Bench where
  desk : Desk
  handles : List Handle := []
  /-- Whether the owner of a broker was destroyed. -/
  destroyed : Nat → Bool := fun _ => false

/-- Something that happens at a bench. -/
inductive Occasion where
  /-- Somebody makes a worker. -/
  | hire (language : String) (launcher : Nat)
  /-- Somebody runs code on a worker, unless a run on another worker still uses the broker. -/
  | run (handle broker : Nat) (code : String)
  /-- A run takes a turn.  It is cancelled when the owner of its broker was destroyed, and may
  be cancelled before. -/
  | poll (receiver : String → Option Nat) (cancelled : Bool) (handle run : Nat)
  /-- The caller of a run goes away. -/
  | abandon (handle run : Nat)
  /-- The owner of a broker is destroyed, which cancels its runs and closes what is open at
  the broker. -/
  | destroy (broker : Nat)
  /-- Something else happens to a worker. -/
  | stir (handle : Nat) (stir : Stir)
  /-- Somebody gives a value to a broker. -/
  | provide (broker : Nat) (value : String)
  /-- A callback is registered at a hook, or the one there is removed. -/
  | register (hook : Nat) (callback : Option Callback)

namespace Bench

/-- A worker by its number; one that was not made has no runs. -/
def worker (bench : Bench) (number : Nat) : Handle :=
  bench.handles[number]?.getD { language := "", launcher := 0 }

/-- The number of the broker of a run. -/
def broker? (bench : Bench) (handle run : Nat) : Option Nat := (bench.worker handle).broker? run

/-- Whether a run on a worker uses a broker and goes on. -/
def uses (bench : Bench) (handle broker : Nat) : Bool := (bench.worker handle).uses broker

/-- Whether no run on another worker uses a broker. -/
def isFree (bench : Bench) (handle broker : Nat) : Bool :=
  (List.range bench.handles.length).all fun other => other = handle || !bench.uses other broker

/-- What a run holds of a broker. -/
def holding (bench : Bench) (broker : Nat) (run : Nat × Nat) : Holding :=
  (bench.worker run.1).holdingOf broker run.2

/-- A broker by its number. -/
def broker (bench : Bench) (number : Nat) : Broker :=
  (bench.desk.broker? number).getD { language := "" }

/-- Puts a worker back that has done something at the desk. -/
def put (bench : Bench) (handle : Nat) (desk : Desk) (worker : Handle) : Bench :=
  { bench with desk, handles := bench.handles.set handle worker }

/-- The bench after an occasion. -/
def step (bench : Bench) : Occasion → Bench
  | .hire language launcher => { bench with handles := bench.handles ++ [{ language, launcher }] }
  | .run handle broker code =>
    match bench.handles[handle]? with
    | none => bench
    | some worker =>
      if bench.isFree handle broker then
        let (desk, worker, _) := worker.run bench.desk broker code
        bench.put handle desk worker
      else bench
  | .poll receiver cancelled handle run =>
    match bench.handles[handle]? with
    | none => bench
    | some worker =>
      let gone := (worker.broker? run).any bench.destroyed
      match worker.turn receiver (cancelled || gone) bench.desk run with
      | none => bench
      | some (desk, worker) => bench.put handle desk worker
  | .abandon handle run =>
    match bench.handles[handle]? with
    | none => bench
    | some worker =>
      let (desk, worker) := worker.abandon bench.desk run
      bench.put handle desk worker
  | .destroy broker =>
    { bench with
      desk := bench.desk.modify broker Broker.reset
      destroyed := fun other => other = broker || bench.destroyed other }
  | .stir handle stir => { bench with handles := bench.handles.modify handle (·.stir stir) }
  | .provide broker value => { bench with desk := (bench.desk.provide broker value).1 }
  | .register hook callback => { bench with desk := bench.desk.setHook hook callback }

/-- The answers that a worker put on its line between two states. -/
def responses (before after : Bench) (handle : Nat) : List String :=
  (before.worker handle).responses (after.worker handle)

/-- The answers that were put on any line between two states. -/
def sent (before after : Bench) : List String :=
  (List.range before.handles.length).flatMap (before.responses after)

end Bench

/-! ## Relays -/

namespace Handle

/-- What is put on the line is passed on in order. -/
def Conveys (before after : Handle) : Prop :=
  ∀ posted relayed, before.Relays posted relayed →
    after.Relays (posted ++ before.responses after) (relayed ++ before.forwards after)

variable {handle after : Handle}

theorem Posts.conveys {values : List String} (posts : handle.Posts after values) :
    handle.Conveys after := by
  intro posted relayed relays
  rw [posts.responses]
  exact relays.posts posts

theorem Stirs.conveys (stirs : handle.Stirs after) : handle.Conveys after := by
  intro posted relayed relays
  rw [stirs.silent, List.append_nil]
  exact stirs.relays posted relayed relays

theorem conveys_refl (handle : Handle) : handle.Conveys handle := (Stirs.refl handle).conveys

theorem posts_abandon (handle : Handle) (desk : Desk) (number : Nat) :
    handle.Posts (handle.abandon desk number).2 [] := by
  simp only [abandon]
  split
  · exact posts_nil rfl rfl rfl rfl
  · split <;> exact posts_nil rfl rfl rfl rfl

theorem conveys_run (handle : Handle) (desk : Desk) (broker : Nat) (code : String) :
    handle.Conveys (handle.run desk broker code).2.1 := by
  obtain ⟨next, values, dealt⟩ := dealt_run (fun _ => none) false handle desk broker code
  have asked : handle.Posts (handle.ask broker code) [] := posts_nil rfl rfl rfl rfl
  exact (asked.trans dealt.posts).conveys

end Handle

namespace Bench

variable {bench : Bench}

theorem worker_of_found {handle : Nat} {worker : Handle}
    (found : bench.handles[handle]? = some worker) : bench.worker handle = worker := by
  rw [Bench.worker, found, Option.getD_some]

/-- A worker that is put back takes the place of the one that was there. -/
theorem worker_put {handle : Nat} {worker : Handle} (found : bench.handles[handle]? = some worker)
    (desk : Desk) (after : Handle) (other : Nat) :
    (bench.put handle desk after).worker other =
      if other = handle then after else bench.worker other := by
  have inside : handle < bench.handles.length := (List.getElem?_eq_some_iff.mp found).1
  by_cases same : other = handle
  · subst same
    simp [Bench.worker, put, inside]
  · have different : handle ≠ other := fun equal => same equal.symm
    simp [Bench.worker, put, same, different]

theorem worker_stir (bench : Bench) (handle : Nat) (stir : Stir) (other : Nat) :
    (bench.step (.stir handle stir)).worker other = bench.worker other ∨
      (bench.step (.stir handle stir)).worker other = (bench.worker other).stir stir := by
  simp only [Bench.worker, step, List.getElem?_modify]
  by_cases same : handle = other
  · cases bench.handles[other]? with
    | none => exact .inl (by simp)
    | some worker => exact .inr (by simp [same])
  · exact .inl (by simp [same])

theorem worker_hire (bench : Bench) (language : String) (launcher other : Nat) :
    (bench.step (.hire language launcher)).worker other = bench.worker other ∨
      bench.worker other = { language := "", launcher := 0 } ∧
        (bench.step (.hire language launcher)).worker other = { language, launcher } := by
  simp only [Bench.worker, step]
  by_cases old : other < bench.handles.length
  · exact .inl (by rw [List.getElem?_append_left old])
  · by_cases new : other = bench.handles.length
    · exact .inr (by simp [new])
    · have beyond : (bench.handles ++ [({ language, launcher } : Handle)]).length ≤ other := by
        simp only [List.length_append, List.length_singleton]
        omega
      exact .inl (by rw [List.getElem?_eq_none beyond,
        List.getElem?_eq_none (Nat.le_of_not_lt old)])

/-- Relays pass everything on in order on every occasion. -/
theorem conveys_step (bench : Bench) (occasion : Occasion) (handle : Nat) :
    (bench.worker handle).Conveys ((bench.step occasion).worker handle) := by
  have refl : (bench.worker handle).Conveys (bench.worker handle) := Handle.conveys_refl _
  have puts {number : Nat} {worker after : Handle} (desk : Desk)
      (found : bench.handles[number]? = some worker) (conveys : worker.Conveys after) :
      (bench.worker handle).Conveys ((bench.put number desk after).worker handle) := by
    rw [worker_put found]
    by_cases same : handle = number
    · rwa [if_pos same, same, worker_of_found found]
    · rwa [if_neg same]
  cases occasion with
  | hire language launcher =>
      rcases bench.worker_hire language launcher handle with same | ⟨unmade, made⟩
      · rwa [same]
      · have blank : Handle.Posts { language := "", launcher := 0 } { language, launcher } [] :=
          Handle.posts_nil rfl rfl rfl rfl
        rw [unmade, made]
        exact blank.conveys
  | run number broker code =>
      simp only [step]
      split
      · exact refl
      · rename_i worker found
        split
        · exact puts _ found (worker.conveys_run bench.desk broker code)
        · exact refl
  | poll receiver cancelled number call =>
      simp only [step]
      split
      · exact refl
      · rename_i worker found
        split
        · exact refl
        · rename_i desk after turned
          obtain ⟨run, -, -, next, values, dealt⟩ :=
            Handle.dealt_turn receiver (fun _ => false) (fun _ _ _ => rfl) turned
          exact puts desk found dealt.posts.conveys
  | abandon number call =>
      simp only [step]
      split
      · exact refl
      · rename_i worker found
        exact puts _ found (worker.posts_abandon bench.desk call).conveys
  | destroy broker => exact refl
  | stir number stir =>
      rcases bench.worker_stir number stir handle with same | stirred
      · rwa [same]
      · rw [stirred]
        exact (Handle.stirs_stir _ stir).conveys
  | provide broker value => exact refl
  | register hook callback => exact refl

end Bench

/-! ## Runs -/

namespace Handle

variable {handle after : Handle} {number : Nat} {run : Run}

/-- A run whose code runs holds the lock. -/
theorem Listens.holder_of_during (listens : handle.Listens) {broker : Nat} {tickets : List Nat}
    (isDuring : handle.holdingOf broker number = .during tickets) :
    handle.lock.holder = some number := by
  simp only [holdingOf] at isDuring
  split at isDuring
  · contradiction
  · rename_i run found
    split at isDuring
    · cases phase : run.phase with
      | running output pending =>
          exact listens number output (by rw [stage_of_getElem? found, phase]; rfl)
      | queued => rw [phase] at isDuring; contradiction
      | finished result => rw [phase] at isDuring; contradiction
      | abandoned => rw [phase] at isDuring; contradiction
    · contradiction

theorem uses_of_getElem? (found : handle.runs[number]? = some run)
    (goesOn : run.phase.goesOn = true) : handle.uses run.broker = true := by
  simp only [uses, List.any_eq_true]
  exact ⟨run, List.mem_of_getElem? found, by simp [goesOn]⟩

theorem uses_of_during {broker : Nat} {tickets : List Nat}
    (isDuring : handle.holdingOf broker number = .during tickets) :
    handle.uses broker = true := by
  simp only [holdingOf] at isDuring
  split at isDuring
  · contradiction
  · rename_i run found
    split at isDuring
    · rename_i own
      rw [← own]
      apply uses_of_getElem? found
      cases phase : run.phase with
      | running output pending => rfl
      | queued => rfl
      | finished result => rw [phase] at isDuring; contradiction
      | abandoned => rw [phase] at isDuring; contradiction
    · contradiction

/-- A run that takes a turn holds the lock. -/
theorem holder_of_turnQueued {desk desk' : Desk}
    (turned : turnQueued desk handle number run = some (desk', after)) :
    handle.lock.holder = some number := by
  simp only [turnQueued] at turned
  split at turned
  · contradiction
  · rename_i held
    simpa [Lock.isHeldBy] using held

theorem Listens.holder_of_turn (listens : handle.Listens) {receiver : String → Option Nat}
    {cancelled : Bool} {desk desk' : Desk}
    (turned : handle.turn receiver cancelled desk number = some (desk', after)) :
    handle.lock.holder = some number := by
  simp only [turn] at turned
  obtain ⟨run, found, turned⟩ := Option.bind_eq_some_iff.mp turned
  split at turned
  · exact holder_of_turnQueued turned
  · rename_i output pending running
    exact listens number output (by rw [stage_of_getElem? found, running]; rfl)
  · contradiction
  · contradiction

theorem holdingOf_congr (runs : after.runs = handle.runs) (broker number : Nat) :
    after.holdingOf broker number = handle.holdingOf broker number := by
  simp only [holdingOf, runs]

theorem uses_congr (runs : after.runs = handle.runs) (broker : Nat) :
    after.uses broker = handle.uses broker := by
  simp only [uses, runs]

/-- One run of a worker gets somewhere, or is new; the others stand where they stood. -/
structure Advances (before : Handle) (number : Nat) (run : Run) (next : Phase) (after : Handle) :
    Prop where
  was : before.runs[number]? = some run ∨ before.runs[number]? = none ∧ run.phase = .queued
  goesOn : run.phase.goesOn = true
  own : after.runs[number]? = some { run with phase := next }
  others : ∀ other, other ≠ number → after.runs[other]? = before.runs[other]?

theorem advances_setPhase (found : handle.runs[number]? = some run)
    (goesOn : run.phase.goesOn = true) {next : Phase}
    (runs : after.runs = (handle.setPhase number next).runs) :
    handle.Advances number run next after where
  was := .inl found
  goesOn := goesOn
  own := by rw [runs, getElem?_setPhase, if_pos rfl, found, Option.map_some]
  others other different := by rw [runs, getElem?_setPhase, if_neg different]

/-- A new run takes its first turn. -/
theorem advances_ask (broker : Nat) (code : String) {next : Phase}
    (runs : after.runs = ((handle.ask broker code).setPhase handle.runs.length next).runs) :
    handle.Advances handle.runs.length { code, broker } next after where
  was := .inr ⟨List.getElem?_eq_none (Nat.le_refl _), rfl⟩
  goesOn := rfl
  own := by rw [runs, getElem?_setPhase, if_pos rfl, getElem?_ask, Option.map_some]
  others other different := by
    rw [runs, getElem?_setPhase, if_neg different]
    by_cases inside : other < handle.runs.length
    · exact List.getElem?_append_left inside
    · have beyond : (handle.ask broker code).runs.length ≤ other := by
        simp only [ask, List.length_append, List.length_singleton]
        omega
      rw [List.getElem?_eq_none beyond, List.getElem?_eq_none (Nat.le_of_not_lt inside)]

/-- A new run whose first turn comes to anything holds the lock. -/
theorem desk_run (listens : handle.Listens) (desk : Desk) (broker : Nat) (code : String) :
    (handle.run desk broker code).1 = desk ∨ ∀ user other tickets,
      handle.holdingOf user other = .during tickets → other = handle.runs.length := by
  cases turned : turnQueued desk (handle.ask broker code) handle.runs.length { code, broker } with
  | none =>
      left
      change ((turnQueued desk (handle.ask broker code) handle.runs.length
        { code, broker }).getD (desk, handle.ask broker code)).1 = desk
      rw [turned]
      rfl
  | some after =>
      right
      intro user other tickets isDuring
      have held := holder_of_turnQueued turned
      have holds := listens.holder_of_during isDuring
      have still : (handle.ask broker code).lock.holder = some other := by
        simp [ask, Lock.enter, holds]
      exact Option.some.inj (still.symm.trans held)

/-- A caller that goes away before its run is over gives up the tickets that the run holds. -/
theorem abandon_cases (handle : Handle) (desk : Desk) (number : Nat) :
    handle.abandon desk number = (desk, handle) ∨
      ∃ run, handle.runs[number]? = some run ∧ run.phase.goesOn = true ∧
        (handle.abandon desk number).2.runs = (handle.setPhase number .abandoned).runs ∧
        ∀ other, (handle.abandon desk number).1.broker? other =
          if other = run.broker then
            (desk.broker? other).map (run.phase.holding.tickets.foldl Broker.abandon ·)
          else desk.broker? other := by
  cases found : handle.runs[number]? with
  | none => exact .inl (by simp [abandon, found])
  | some run =>
      cases phase : run.phase with
      | queued =>
          refine .inr ⟨run, rfl, by rw [phase]; rfl, by simp [abandon, found, phase], ?_⟩
          intro other
          simp [abandon, found, phase, Phase.holding, Holding.tickets]
      | running output pending =>
          refine .inr ⟨run, rfl, by rw [phase]; rfl, by simp [abandon, found, phase], ?_⟩
          intro other
          simp only [abandon, found, phase, Phase.holding, Holding.tickets, Desk.abandonAll]
          exact Desk.broker?_modify ..
      | finished result => exact .inl (by simp [abandon, found, phase])
      | abandoned => exact .inl (by simp [abandon, found, phase])

namespace Advances

variable {next : Phase} (advances : handle.Advances number run next after)

include advances

theorem holding_before (broker : Nat) : handle.holdingOf broker number =
    if run.broker = broker then run.phase.holding else .before := by
  rcases advances.was with found | ⟨missing, queued⟩
  · rw [holdingOf, found]
  · rw [holdingOf, missing, queued]
    exact (ite_self _).symm

theorem holding_after (broker : Nat) : after.holdingOf broker number =
    if run.broker = broker then next.holding else .before := by
  rw [holdingOf, advances.own]

theorem holding_of_ne (broker : Nat) {other : Nat} (different : other ≠ number) :
    after.holdingOf broker other = handle.holdingOf broker other := by
  rw [holdingOf, advances.others other different, holdingOf]

/-- Only the run that gets somewhere can have come to use a broker. -/
theorem uses_after {broker : Nat} (isUsed : after.uses broker = true) :
    handle.uses broker = true ∨ run.broker = broker := by
  simp only [uses, List.any_eq_true, Bool.and_eq_true, decide_eq_true_eq] at isUsed
  obtain ⟨user, mem, isBroker, goesOn⟩ := isUsed
  obtain ⟨other, found⟩ := List.getElem?_of_mem mem
  by_cases own : other = number
  · rw [own, advances.own] at found
    cases found
    exact .inr isBroker
  · rw [advances.others other own] at found
    exact .inl (isBroker ▸ uses_of_getElem? found goesOn)

end Advances

end Handle

namespace Bench

variable {bench : Bench} {handle number : Nat} {worker after : Handle}

theorem responses_same {before next : Bench} (same : next.worker handle = before.worker handle) :
    before.responses next handle = [] := by
  rw [responses, same]
  exact Handle.responses_nil (Nat.le_refl _)

/-- A free broker is used by nobody but the worker that it is free for. -/
theorem eq_of_isFree {broker other : Nat} (free : bench.isFree handle broker = true)
    (isUsed : bench.uses other broker = true) : other = handle := by
  have made : other < bench.handles.length := by
    apply Nat.lt_of_not_le
    intro beyond
    simp [uses, Bench.worker, List.getElem?_eq_none beyond, Handle.uses] at isUsed
  simp only [isFree, List.all_eq_true, List.mem_range] at free
  simpa [isUsed] using free other made

theorem broker_of_found {found : Broker} (reached : bench.desk.broker? number = some found) :
    bench.broker number = found := by
  rw [Bench.broker, reached, Option.getD_some]

/-- What one worker puts on its line is all that is sent. -/
theorem sent_put (found : bench.handles[handle]? = some worker) (desk : Desk) (after : Handle) :
    bench.sent (bench.put handle desk after) = worker.responses after := by
  have inside : handle < bench.handles.length := (List.getElem?_eq_some_iff.mp found).1
  rw [sent, flatMap_range_eq inside, responses, worker_of_found found, worker_put found,
    if_pos rfl]
  intro other different
  exact responses_same (by rw [worker_put found, if_neg different])

theorem sent_nil {next : Bench} (silent : ∀ handle, bench.responses next handle = []) :
    bench.sent next = [] := by
  simp only [sent, List.flatMap_eq_nil_iff]
  exact fun handle _ => silent handle

/-- One run of a worker gets somewhere, or is new. -/
structure Advances (before : Bench) (handle number : Nat) (run : Run) (next : Phase)
    (after : Bench) : Prop where
  /-- Only its worker can have come to use a broker. -/
  uses : ∀ other broker, after.uses other broker = true →
    before.uses other broker = true ∨ other = handle ∧ run.broker = broker
  was : ∀ broker, before.holding broker (handle, number) =
    if run.broker = broker then run.phase.holding else .before
  holding : ∀ broker, after.holding broker =
    if run.broker = broker then
      Ledger.update (before.holding broker) (handle, number) next.holding
    else before.holding broker

theorem advances_put {run : Run} {next : Phase} (found : bench.handles[handle]? = some worker)
    (advances : worker.Advances number run next after) (desk : Desk) :
    bench.Advances handle number run next (bench.put handle desk after) := by
  have workers := worker_put found desk after
  have was (broker : Nat) : bench.holding broker (handle, number) =
      if run.broker = broker then run.phase.holding else .before := by
    rw [Bench.holding, worker_of_found found]
    exact advances.holding_before broker
  refine ⟨?_, was, ?_⟩
  · intro other broker isUsed
    simp only [Bench.uses, workers] at isUsed ⊢
    split at isUsed
    · rename_i same
      rw [same, worker_of_found found]
      exact (advances.uses_after isUsed).imp_right fun own => ⟨rfl, own⟩
    · exact .inl isUsed
  · intro broker
    funext caller
    by_cases same : caller = (handle, number)
    · have now : (bench.put handle desk after).holding broker (handle, number) =
          if run.broker = broker then next.holding else .before := by
        rw [Bench.holding, workers, if_pos rfl]
        exact advances.holding_after broker
      rw [same, now]
      split
      · rw [Ledger.update_self]
      · rename_i other
        rw [was, if_neg other]
    · have elsewhere : (bench.put handle desk after).holding broker caller =
          bench.holding broker caller := by
        simp only [Bench.holding, workers]
        by_cases here : caller.1 = handle
        · rw [if_pos here, here, worker_of_found found]
          exact advances.holding_of_ne broker fun equal => same (Prod.ext here equal)
        · rw [if_neg here]
      rw [elsewhere]
      split
      · exact (if_neg same).symm
      · rfl

/-- Whoever listens goes on listening when another worker is put back. -/
theorem listens_put (found : bench.handles[handle]? = some worker) (desk : Desk)
    (listens : ∀ other, (bench.worker other).Listens) (isAfter : after.Listens) (other : Nat) :
    ((bench.put handle desk after).worker other).Listens := by
  rw [worker_put found]
  split
  · exact isAfter
  · exact listens other

/-- No run of a worker gets anywhere. -/
structure Settles (before after : Bench) : Prop where
  runs : ∀ handle, (after.worker handle).runs = (before.worker handle).runs
  lock : ∀ handle, (after.worker handle).lock = (before.worker handle).lock
  silent : ∀ handle, before.responses after handle = []

section Settles

variable {before after : Bench}

theorem settles_of_same (same : ∀ handle, after.worker handle = before.worker handle) :
    before.Settles after where
  runs handle := by rw [same]
  lock handle := by rw [same]
  silent handle := responses_same (same handle)

theorem settles_put (found : bench.handles[handle]? = some worker) (desk : Desk) :
    bench.Settles (bench.put handle desk worker) := by
  apply settles_of_same
  intro other
  rw [worker_put found]
  split
  · rename_i same
    rw [same, worker_of_found found]
  · rfl

theorem settles_hire (bench : Bench) (language : String) (launcher : Nat) :
    bench.Settles (bench.step (.hire language launcher)) := by
  have each := bench.worker_hire language launcher
  refine ⟨fun handle => ?_, fun handle => ?_, fun handle => ?_⟩
  · rcases each handle with same | ⟨unmade, made⟩
    · rw [same]
    · rw [unmade, made]
  · rcases each handle with same | ⟨unmade, made⟩
    · rw [same]
    · rw [unmade, made]
  · rcases each handle with same | ⟨unmade, made⟩
    · exact responses_same same
    · rw [responses, unmade, made]
      exact Handle.responses_nil (Nat.le_refl _)

theorem settles_stir (bench : Bench) (handle : Nat) (stir : Stir) :
    bench.Settles (bench.step (.stir handle stir)) := by
  have stirs : ∀ other,
      (bench.worker other).Stirs ((bench.step (.stir handle stir)).worker other) := by
    intro other
    rcases bench.worker_stir handle stir other with same | stirred
    · rw [same]
      exact .refl _
    · rw [stirred]
      exact Handle.stirs_stir _ stir
  exact ⟨fun other => (stirs other).runs, fun other => (stirs other).lock,
    fun other => (stirs other).silent⟩

theorem Settles.listens (settles : before.Settles after)
    (listens : ∀ handle, (before.worker handle).Listens) (handle : Nat) :
    (after.worker handle).Listens :=
  (Handle.lingers_congr (settles.runs handle) (settles.lock handle)).listens (listens handle)

theorem Settles.uses (settles : before.Settles after) (handle number : Nat) :
    after.uses handle number = true ↔ before.uses handle number = true := by
  rw [Bench.uses, Handle.uses_congr (settles.runs handle), Bench.uses]

theorem Settles.holding (settles : before.Settles after) (number : Nat) :
    after.holding number = before.holding number :=
  funext fun caller => Handle.holdingOf_congr (settles.runs caller.1) number caller.2

end Settles

end Bench

end Polyglot.Worker
