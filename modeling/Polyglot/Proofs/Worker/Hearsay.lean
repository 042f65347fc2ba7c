import Polyglot.Proofs.Worker.Seating

/-!
# What calls of worker executors hear

A chronicle is kept beside executors that share a registry: a journal for each worker, in which
the runs on the worker are the owners of what is submitted, and the seat of each call.  The
interpreters are taken to handle their runs in order, and to emit output and requests for input
and then one last message for each; an occurrence in which one would do anything else does not
happen.

A call that returns a result has the result of the run in its seat.  The run heard what was said
for one run of the interpreter: the first one whose last message had not arrived when the code of
the call was submitted.
-/

namespace Polyglot.Worker

/-- The call whose turn an occurrence is. -/
def Workshop.author? (shop : Workshop) : Occurrence → Option (Nat × Nat)
  | .call executor _ => shop.executors[executor]?.map fun found => (executor, found.calls.length)
  | .poll _ executor number => some (executor, number)
  | _ => none

/-- A workshop with a journal of each worker and the seats of the calls. -/
structure Chronicle where
  shop : Workshop
  journals : Nat → Journal := fun _ => {}
  seats : Seats := fun _ _ => none

namespace Chronicle

/-- Executors that nobody has called yet, and a registry that nobody has asked for a worker. -/
def fresh (desk : Desk) (executors : List Executor) : Chronicle where
  shop := .fresh desk executors

/-- Whether the interpreters keep to their order in an occurrence. -/
def permits (chronicle : Chronicle) : Occurrence → Bool
  | .interpreter number act =>
    chronicle.shop.registry.handles[number]?.all
      (·.allows (chronicle.journals number).account act)
  | _ => true

/-- The worker and the run on it whose turn an occurrence is. -/
def attended (chronicle : Chronicle) (occurrence : Occurrence) : Option (Nat × Nat) :=
  chronicle.shop.author? occurrence >>= fun author =>
    (chronicle.shop.step occurrence).seat? author.1 author.2

/-- The account of an interpreter after an occurrence in which no run takes a turn. -/
def accountAfter (chronicle : Chronicle) (number : Nat) : Occurrence → Account
  | .interpreter acting act =>
    let account := (chronicle.journals number).account
    if acting = number then
      chronicle.shop.registry.handles[number]?.elim account (·.account account act)
    else account
  | _ => (chronicle.journals number).account

/-- No interpreter does anything in an occurrence. -/
def IsMute (chronicle : Chronicle) (occurrence : Occurrence) : Prop :=
  ∀ number, chronicle.accountAfter number occurrence = (chronicle.journals number).account

/-- The journal of a worker after an occurrence. -/
def journalAfter (chronicle : Chronicle) (occurrence : Occurrence) (number : Nat) : Journal :=
  let journal := chronicle.journals number
  match (chronicle.shop.step occurrence).registry.handles[number]? with
  | none => journal
  | some next =>
    match chronicle.attended occurrence with
    | some (handle, run) =>
      if handle = number then
        chronicle.shop.registry.handles[number]?.elim journal (·.observed next journal run)
      else journal.drift (chronicle.accountAfter number occurrence) next.strand.voice.length
    | none => journal.drift (chronicle.accountAfter number occurrence) next.strand.voice.length

/-- The chronicle after an occurrence that is permitted. -/
def advance (chronicle : Chronicle) (occurrence : Occurrence) : Chronicle where
  shop := chronicle.shop.step occurrence
  journals := chronicle.journalAfter occurrence
  seats := (chronicle.shop.step occurrence).reseat chronicle.seats

/-- The chronicle after an occurrence. -/
def step (chronicle : Chronicle) (occurrence : Occurrence) : Chronicle :=
  if chronicle.permits occurrence then chronicle.advance occurrence else chronicle

/-- The chronicle after several occurrences. -/
def run (chronicle : Chronicle) (occurrences : List Occurrence) : Chronicle :=
  occurrences.foldl step chronicle

@[simp] theorem run_nil (chronicle : Chronicle) : chronicle.run [] = chronicle := rfl

@[simp] theorem run_cons (chronicle : Chronicle) (occurrence : Occurrence)
    (occurrences : List Occurrence) :
    chronicle.run (occurrence :: occurrences) = (chronicle.step occurrence).run occurrences := rfl

/-- What holds of a chronicle whatever happened in it. -/
structure Sound (chronicle : Chronicle) : Prop where
  proper : chronicle.shop.registry.Proper
  workers : ∀ (number : Nat) (worker : Handle),
    chronicle.shop.registry.handles[number]? = some worker →
    worker.Sound (chronicle.journals number)
  unmade : ∀ number, chronicle.shop.registry.handles[number]? = none →
    chronicle.journals number = {}
  seating : chronicle.shop.Seating chronicle.seats

theorem sound_fresh (desk : Desk) (executors : List Executor) : (fresh desk executors).Sound where
  proper := Registry.proper_empty
  workers _ _ found := by contradiction
  unmade _ _ := rfl
  seating := Workshop.seating_fresh desk executors

variable {chronicle : Chronicle} {occurrence : Occurrence} {number : Nat}

/-! ## The journal of a worker -/

section Journals

variable {worker next : Handle}

theorem journalAfter_of_missing
    (missing : (chronicle.shop.step occurrence).registry.handles[number]? = none) :
    chronicle.journalAfter occurrence number = chronicle.journals number := by
  simp only [journalAfter, missing]

theorem journalAfter_of_drift
    (found : (chronicle.shop.step occurrence).registry.handles[number]? = some next)
    (aside : ∀ run, chronicle.attended occurrence ≠ some (number, run)) :
    chronicle.journalAfter occurrence number =
      (chronicle.journals number).drift (chronicle.accountAfter number occurrence)
        next.strand.voice.length := by
  simp only [journalAfter, found]
  split
  · rename_i handle run attends
    split
    · rename_i same
      subst same
      exact absurd attends (aside run)
    · rfl
  · rfl

theorem journalAfter_of_attended
    (was : chronicle.shop.registry.handles[number]? = some worker)
    (found : (chronicle.shop.step occurrence).registry.handles[number]? = some next) {run : Nat}
    (attends : chronicle.attended occurrence = some (number, run)) :
    chronicle.journalAfter occurrence number =
      worker.observed next (chronicle.journals number) run := by
  simp only [journalAfter, found, attends, was, if_true, Option.elim_some]

end Journals

/-! ## While no run takes a turn -/

section Ease

variable {shop : Workshop} {executor : Nat} {found : Executor}

/-- No run on a worker takes a turn. -/
theorem Sound.ease (sound : chronicle.Sound)
    (lets : chronicle.shop.registry.Lets (chronicle.shop.step occurrence).registry)
    (seating : (chronicle.shop.step occurrence).Seating chronicle.seats)
    (aside : chronicle.attended occurrence = none)
    (mute : chronicle.IsMute occurrence) : (chronicle.advance occurrence).Sound where
  proper := lets.proper sound.proper
  workers number next isNext := by
    have nobody : ∀ run, chronicle.attended occurrence ≠ some (number, run) := by
      intro run attends
      rw [aside] at attends
      contradiction
    simp only [advance] at isNext ⊢
    rw [journalAfter_of_drift isNext nobody, mute]
    cases was : chronicle.shop.registry.handles[number]? with
    | some worker =>
        obtain ⟨same, isSame, letsBe⟩ := lets.kept number worker was
        rw [isNext] at isSame
        cases isSame
        exact (sound.workers number worker was).lets letsBe
    | none =>
        obtain ⟨language, launcher, letsBe⟩ := lets.made number next was isNext
        rw [sound.unmade number was]
        exact (Handle.sound_fresh language launcher).lets letsBe
  unmade number missing := by
    simp only [advance] at missing ⊢
    rw [journalAfter_of_missing missing]
    apply sound.unmade
    cases was : chronicle.shop.registry.handles[number]? with
    | none => rfl
    | some worker =>
        obtain ⟨next, isNext, -⟩ := lets.kept number worker was
        rw [isNext] at missing
        contradiction
  seating := by
    simp only [advance, Workshop.reseat_of_running seating.running]
    exact seating

/-- Something is done with the registry, and nothing with any executor. -/
theorem Sound.letsBe (sound : chronicle.Sound)
    (lets : chronicle.shop.registry.Lets (chronicle.shop.step occurrence).registry)
    (executors : (chronicle.shop.step occurrence).executors = chronicle.shop.executors)
    (author : chronicle.shop.author? occurrence = none)
    (mute : chronicle.IsMute occurrence) : (chronicle.advance occurrence).Sound := by
  have calls (executor number : Nat) : (chronicle.shop.step occurrence).call? executor number =
      chronicle.shop.call? executor number := by
    rw [Workshop.call?, executors, Workshop.call?]
  apply sound.ease lets _ _ mute
  · apply sound.seating.pass
    refine ⟨lets.keeps, ?_, ?_⟩
    · intro executor number call called
      exact .inl (calls executor number ▸ called)
    · intro executor number purpose phase called
      exact ⟨phase, (calls executor number).trans called⟩
  · simp only [attended, author]
    rfl

/-- Nothing happens. -/
theorem Sound.idle (sound : chronicle.Sound)
    (same : chronicle.shop.step occurrence = chronicle.shop)
    (aside : chronicle.attended occurrence = none)
    (mute : chronicle.IsMute occurrence) : (chronicle.advance occurrence).Sound := by
  apply sound.ease _ _ aside mute
  · rw [same]
    exact .refl _
  · rw [same]
    exact sound.seating

end Ease

/-! ## The turn of a call -/

section Turn

variable {executor : Nat} {found : Executor} {place : Place}

/-- What holds of the executors of a chronicle. -/
theorem Sound.stands (sound : chronicle.Sound)
    (at_ : chronicle.shop.executors[executor]? = some found) :
    Place.Stands ⟨chronicle.shop.desk, chronicle.shop.registry, found⟩ where
  proper := sound.proper
  listens number worker isWorker := (sound.workers number worker isWorker).listens
  seated number purpose handle run called := by
    have isCall := (Workshop.call?_of_getElem? at_ number).trans called
    have seated := sound.seating.running executor number (handle, run)
      (Workshop.seat?_eq_some.mpr ⟨purpose, isCall⟩)
    obtain ⟨code, phase, worker, same, isWorker, isCode⟩ :=
      sound.seating.placed executor number handle run seated
    rw [isCall] at same
    cases same
    exact ⟨code, worker, rfl, isWorker, isCode⟩

/-- The run of a call takes a turn. -/
theorem Sound.work (sound : chronicle.Sound) {handle run : Nat} {worker next : Handle}
    (attends : chronicle.attended occurrence = some (handle, run))
    (mute : chronicle.IsMute occurrence)
    (works : chronicle.shop.registry.Works handle worker run next
      (chronicle.shop.step occurrence).registry)
    (seating : (chronicle.shop.step occurrence).Seating
      ((chronicle.shop.step occurrence).reseat chronicle.seats)) :
    (chronicle.advance occurrence).Sound where
  proper := works.proper sound.proper
  workers number other isOther := by
    simp only [advance] at isOther ⊢
    by_cases same : number = handle
    · subst same
      rw [works.moved] at isOther
      cases isOther
      rw [journalAfter_of_attended works.found works.moved attends]
      exact (sound.workers number worker works.found).deed works.deed
    · have aside : ∀ run, chronicle.attended occurrence ≠ some (number, run) := by
        intro run attended
        rw [attends] at attended
        cases attended
        exact same rfl
      have wasThere := (works.others number same).symm.trans isOther
      rw [journalAfter_of_drift isOther aside, mute]
      exact (sound.workers number other wasThere).lets (.refl other)
  unmade number missing := by
    simp only [advance] at missing ⊢
    rw [journalAfter_of_missing missing]
    by_cases same : number = handle
    · rw [same, works.moved] at missing
      contradiction
    · exact sound.unmade number ((works.others number same).symm.trans missing)
  seating := seating

/-- A call takes a turn. -/
theorem Sound.deed (sound : chronicle.Sound)
    (at_ : chronicle.shop.executors[executor]? = some found)
    (stepped : chronicle.shop.step occurrence = chronicle.shop.put executor place)
    (author : chronicle.shop.author? occurrence = some (executor, number))
    (mute : chronicle.IsMute occurrence)
    (deed : Place.Deed ⟨chronicle.shop.desk, chronicle.shop.registry, found⟩ number place) :
    (chronicle.advance occurrence).Sound := by
  have attended : chronicle.attended occurrence =
      (chronicle.shop.put executor place).seat? executor number := by
    simp only [Chronicle.attended, author, stepped]
    rfl
  cases deed with
  | wait eases idle =>
      have passes := Workshop.passes_put at_ eases
      apply sound.ease _ _ _ mute
      · rw [stepped]
        exact eases.lets
      · rw [stepped]
        exact sound.seating.pass passes
      · rw [attended]
        cases seated : (chronicle.shop.put executor place).seat? executor number with
        | none => rfl
        | some seat =>
            obtain ⟨purpose, called⟩ := Workshop.seat?_eq_some.mp seated
            rw [Workshop.call?_put at_, if_pos rfl] at called
            exact absurd (by rw [Executor.phase?, called, Option.map_some]) (idle seat.1 seat.2)
  | @work code handle run worker next goes own works isCode =>
      have gone := Workshop.goes_put at_ goes
      have attends : chronicle.attended occurrence = some (handle, run) :=
        attended.trans (Workshop.seat?_eq_some.mpr ⟨_, gone.own⟩)
      have new : chronicle.shop.seat? executor number = some (handle, run) ∨
          run = worker.runs.length := by
        rcases own with stage | isNew
        · obtain ⟨⟨purpose, phase⟩, isCall, rfl⟩ := Option.map_eq_some_iff.mp stage
          exact .inl (Workshop.seat?_eq_some.mpr
            ⟨purpose, (Workshop.call?_of_getElem? at_ number).trans isCall⟩)
        · exact .inr isNew
      apply sound.work attends mute
      · rw [stepped]
        exact works
      · rw [stepped]
        exact sound.seating.work gone new works isCode
  | @answer purpose handle run worker result was goes registry isWorker stage =>
      have gone := Workshop.goes_put at_ goes
      have isCall := (Workshop.call?_of_getElem? at_ number).trans was
      apply sound.ease _ _ _ mute
      · rw [stepped]
        change chronicle.shop.registry.Lets place.registry
        rw [registry]
        exact .refl _
      · rw [stepped]
        exact sound.seating.answer isCall gone registry isWorker stage
      · rw [attended, Workshop.seat?, gone.own]

end Turn

/-! ## Occurrences -/

section Occurrences

section Interpreter

variable {shop : Workshop} {acting : Nat} {act : Link.Act WorkerMessage}

theorem handles_interpreter (number : Nat) :
    (shop.step (.interpreter acting act)).registry.handles[number]? =
      if number = acting then shop.registry.handles[number]?.map fun worker =>
        { worker with interpreter := worker.interpreter.map (·.act act) }
      else shop.registry.handles[number]? :=
  Registry.handles_modifyHandle ..

/-- No run of a worker notices what an interpreter does before it takes its turn. -/
theorem runs_interpreter {next : Handle}
    (isNext : (shop.step (.interpreter acting act)).registry.handles[number]? = some next) :
    ∃ worker, shop.registry.handles[number]? = some worker ∧ next.runs = worker.runs := by
  rw [handles_interpreter] at isNext
  split at isNext
  · obtain ⟨worker, isWorker, rfl⟩ := Option.map_eq_some_iff.mp isNext
    exact ⟨worker, isWorker, rfl⟩
  · exact ⟨next, isNext, rfl⟩

theorem succeeds_interpreter :
    shop.registry.Succeeds (shop.step (.interpreter acting act)).registry :=
  Registry.succeeds_modifyHandle fun worker _ => worker.wanes_move (.interpreter act)

theorem passes_interpreter : shop.Passes (shop.step (.interpreter acting act)) where
  keeps number worker isWorker := by
    obtain ⟨next, isNext, -⟩ := succeeds_interpreter.handles number worker isWorker
    obtain ⟨same, isSame, runs⟩ := runs_interpreter isNext
    rw [isWorker] at isSame
    cases isSame
    exact ⟨next, isNext, Handle.keeps_congr runs⟩
  calls _ _ _ := .inl
  stays _ _ _ phase called := ⟨phase, called⟩

/-- An interpreter does something at its end of the link. -/
theorem Sound.interpreter (sound : chronicle.Sound)
    (permitted : chronicle.permits (.interpreter acting act) = true) :
    (chronicle.advance (.interpreter acting act)).Sound where
  proper := by
    refine ⟨sound.proper.tidy.modifyHandle fun worker _ => worker.wanes_move (.interpreter act), ?_⟩
    intro number next isNext used
    obtain ⟨worker, isWorker, same⟩ := runs_interpreter isNext
    exact (sound.proper.lent number worker isWorker (same ▸ used)).mono succeeds_interpreter
  workers number next isNext := by
    simp only [advance] at isNext ⊢
    have aside : ∀ run, chronicle.attended (.interpreter acting act) ≠ some (number, run) :=
      fun run attends => by contradiction
    rw [journalAfter_of_drift isNext aside]
    rw [handles_interpreter] at isNext
    split at isNext
    · rename_i same
      subst same
      obtain ⟨worker, isWorker, rfl⟩ := Option.map_eq_some_iff.mp isNext
      have allowed : worker.allows (chronicle.journals number).account act = true := by
        simpa [permits, isWorker] using permitted
      have account : chronicle.accountAfter number (.interpreter number act) =
          worker.account (chronicle.journals number).account act := by
        simp only [accountAfter, if_true, isWorker, Option.elim_some]
      rw [account]
      exact (sound.workers number worker isWorker).act allowed rfl
    · rename_i different
      have account : chronicle.accountAfter number (.interpreter acting act) =
          (chronicle.journals number).account := if_neg fun equal => different equal.symm
      rw [account]
      exact (sound.workers number next isNext).lets (.refl next)
  unmade number missing := by
    simp only [advance] at missing ⊢
    rw [journalAfter_of_missing missing]
    rw [handles_interpreter] at missing
    split at missing
    · exact sound.unmade number (Option.map_eq_none_iff.mp missing)
    · exact sound.unmade number missing
  seating := by
    have seating : (chronicle.shop.step (.interpreter acting act)).Seating chronicle.seats :=
      sound.seating.pass passes_interpreter
    simp only [advance, Workshop.reseat_of_running seating.running]
    exact seating

end Interpreter

/-- The relay of a worker moves, or nobody has the worker any more. -/
theorem Sound.relay (sound : chronicle.Sound) {change : Handle → Handle}
    (wanes : ∀ worker : Handle, worker.Wanes (change worker))
    (lets : ∀ worker : Handle, (worker.relay = .launching → worker.interpreter = none) →
      worker.Lets (change worker)) (number : Nat) :
    chronicle.shop.registry.Lets (chronicle.shop.registry.modifyHandle number change) := by
  apply Registry.lets_modifyHandle
  · exact fun worker _ => wanes worker
  · intro worker isWorker
    exact lets worker (sound.workers number worker isWorker).bare

/-- The executor that an occurrence is about is not there. -/
theorem Sound.missing (sound : chronicle.Sound) {executor : Nat}
    (missing : chronicle.shop.executors[executor]? = none)
    (own : occurrence.executor? = some executor) : (chronicle.advance occurrence).Sound := by
  have same : chronicle.shop.step occurrence = chronicle.shop :=
    Workshop.step_of_getElem?_eq_none missing own
  have uncalled (number : Nat) : chronicle.shop.seat? executor number = none := by
    simp [Workshop.seat?, Workshop.call?, missing]
  apply sound.idle same
  · cases occurrence with
    | call executor purpose =>
        cases own
        simp [attended, Workshop.author?, missing]
    | poll receiver executor number =>
        cases own
        simp [attended, Workshop.author?, same, uncalled]
    | _ => rfl
  · cases occurrence with
    | interpreter number act => contradiction
    | _ => exact fun _ => rfl

/-- Somebody who has an executor does something with it in which no run takes a turn. -/
theorem Sound.eases (sound : chronicle.Sound) {executor : Nat} {found : Executor} {place : Place}
    (at_ : chronicle.shop.executors[executor]? = some found)
    (stepped : chronicle.shop.step occurrence = chronicle.shop.put executor place)
    (author : chronicle.shop.author? occurrence = none)
    (mute : chronicle.IsMute occurrence)
    (eases : Place.Eases ⟨chronicle.shop.desk, chronicle.shop.registry, found⟩ place) :
    (chronicle.advance occurrence).Sound := by
  apply sound.ease _ _ _ mute
  · rw [stepped]
    exact eases.lets
  · rw [stepped]
    exact sound.seating.pass (Workshop.passes_put at_ eases)
  · simp only [attended, author]
    rfl

theorem change_eq_put {shop : Workshop} {executor : Nat} {found : Executor}
    (at_ : shop.executors[executor]? = some found) (change : Place → Place) :
    shop.change executor change = shop.put executor (change ⟨shop.desk, shop.registry, found⟩) := by
  simp [Workshop.change, Workshop.place?, at_]

/-- Somebody who has an executor makes, polls or gives up a call, or destroys it. -/
theorem Sound.own (sound : chronicle.Sound) {executor : Nat}
    (own : occurrence.executor? = some executor) : (chronicle.advance occurrence).Sound := by
  cases at_ : chronicle.shop.executors[executor]? with
  | none => exact sound.missing at_ own
  | some found =>
      have stands := sound.stands at_
      cases occurrence with
      | call executor purpose =>
          cases own
          have author : chronicle.shop.author? (.call executor purpose) =
              some (executor, found.calls.length) := by simp [Workshop.author?, at_]
          exact sound.deed at_ (change_eq_put at_ _) author (fun _ => rfl)
            (Place.deed_call stands purpose)
      | poll receiver executor number =>
          cases own
          exact sound.deed at_ (change_eq_put at_ _) rfl (fun _ => rfl)
            (Place.deed_poll stands receiver number)
      | abandon executor number =>
          cases own
          exact sound.eases at_ (change_eq_put at_ _) rfl (fun _ => rfl)
            (Place.eases_abandon _ number)
      | destroy executor =>
          cases own
          exact sound.eases at_ (change_eq_put at_ _) rfl (fun _ => rfl) (Place.eases_destroy _)
      | _ => contradiction

/-- An occurrence leaves a chronicle sound. -/
theorem Sound.step (sound : chronicle.Sound) (occurrence : Occurrence) :
    (chronicle.step occurrence).Sound := by
  simp only [Chronicle.step]
  split
  · rename_i permitted
    cases occurrence with
    | call executor purpose => exact sound.own rfl
    | poll receiver executor number => exact sound.own rfl
    | abandon executor number => exact sound.own rfl
    | destroy executor => exact sound.own rfl
    | interpreter number act => exact sound.interpreter permitted
    | acquire language launcher timeout =>
        exact sound.letsBe (Registry.lets_acquire ..) rfl rfl fun _ => rfl
    | start number =>
        apply sound.letsBe _ rfl rfl fun _ => rfl
        simp only [Workshop.step, Workshop.changeRegistry]
        cases turned : chronicle.shop.registry.turnStart number with
        | none => exact .refl _
        | some next => exact Registry.lets_turnStart sound.proper turned
    | collect language start =>
        apply sound.letsBe _ rfl rfl fun _ => rfl
        simp only [Workshop.step, Workshop.changeRegistry]
        split
        · exact .refl _
        · rename_i outcome settled
          exact Registry.lets_collect settled language
    | expire start => exact sound.letsBe (Registry.lets_expire ..) rfl rfl fun _ => rfl
    | shutdown language => exact sound.letsBe (Registry.lets_shutdown ..) rfl rfl fun _ => rfl
    | shutdownAll => exact sound.letsBe (Registry.lets_shutdownAll _) rfl rfl fun _ => rfl
    | launched number outcome =>
        refine sound.letsBe (sound.relay ?_ ?_ number) rfl rfl fun _ => rfl
        · exact fun worker => worker.wanes_move (.launched outcome)
        · intro worker bare
          split
          · rename_i launching
            exact Handle.lets_launched bare launching outcome
          · exact .refl worker
    | request number =>
        refine sound.letsBe (sound.relay ?_ ?_ number) rfl rfl fun _ => rfl
        · exact fun worker => worker.wanes_move .request
        · intro worker _
          cases turned : worker.turnRequest with
          | none => exact .refl worker
          | some next => exact Handle.lets_turnRequest turned
    | message number =>
        refine sound.letsBe (sound.relay ?_ ?_ number) rfl rfl fun _ => rfl
        · exact fun worker => worker.wanes_move .message
        · intro worker _
          cases turned : worker.turnMessage with
          | none => exact .refl worker
          | some next => exact Handle.lets_turnMessage turned
    | drop number =>
        refine sound.letsBe (sound.relay ?_ ?_ number) rfl rfl fun _ => rfl
        · exact fun worker => worker.wanes_drop
        · exact fun worker _ => worker.lets_drop
    | desk desk => exact sound.letsBe (.refl _) rfl rfl fun _ => rfl
  · exact sound

/-- A chronicle is sound whatever happens. -/
theorem Sound.run (sound : chronicle.Sound) (occurrences : List Occurrence) :
    (chronicle.run occurrences).Sound := by
  induction occurrences generalizing chronicle with
  | nil => exact sound
  | cons occurrence occurrences ih => exact ih (sound.step occurrence)

end Occurrences

/-! ## Results -/

section Tells

/-- What came of a call that has a result. -/
def testimony (chronicle : Chronicle) (executor number : Nat) (code : String)
    (result : RunResult) : Testimony :=
  let seat := chronicle.seats executor number
  { owner := seat.elim number (·.2)
    code
    result
    account := seat.elim {} fun seat => (chronicle.journals seat.1).account
    hearing := seat.bind fun seat => (chronicle.journals seat.1).hearings seat.2 }

/-- What came of the calls that have results. -/
inductive Tells (chronicle : Chronicle) : Testimony → Prop where
  | returned {executor number : Nat} {code : String} {result : RunResult}
      (called : chronicle.shop.call? executor number =
        some ⟨.execute code, .finished (.ok (some result))⟩) :
      Tells chronicle (chronicle.testimony executor number code result)

theorem Sound.isExplained (sound : chronicle.Sound) {testimony : Testimony}
    (tells : chronicle.Tells testimony) : testimony.IsExplained := by
  cases tells with
  | @returned executor number code result called =>
      obtain ⟨handle, run, worker, seated, isWorker, stage⟩ :=
        sound.seating.returned executor number _ result called
      obtain ⟨same, phase, other, isCall, isOther, isCode⟩ :=
        sound.seating.placed executor number handle run seated
      rw [called] at isCall
      cases isCall
      rw [isWorker] at isOther
      cases isOther
      have hears := sound.workers handle worker isWorker
      have fits := hears.fits run
      rw [stage] at fits
      simp only [testimony, seated, Option.elim_some, Option.bind_some]
      rcases fits with ⟨unheard, refused⟩ | ⟨hearing, found, yields⟩
      · rw [unheard]
        exact refused
      · rw [found]
        obtain ⟨submitted, isSubmitted, holds⟩ := hears.fair run hearing found
        rw [isCode] at isSubmitted
        cases isSubmitted
        exact ⟨yields, holds⟩

end Tells

end Chronicle

end Polyglot.Worker
