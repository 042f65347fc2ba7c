import Polyglot.Proofs.Worker.Service

/-!
# Lending workers

An executor asks a registry for the worker of its language, waits for it to start if it
has to, runs code on it and lets it go.  Each of these steps takes what is being done
with the worker to what is done next.
-/

namespace Polyglot.Worker.Registry

variable {registry after : Registry} {accounts accounts' : Nat → Account}
  {failures : List TransportError} {job : Job} {language code : String}
  {number start run owner : Nat} {handle next : Handle}

theorem handles_modifyHandle (registry : Registry) (number other : Nat)
    (change : Handle → Handle) :
    (registry.modifyHandle number change).handles[other]? =
      if other = number then registry.handles[other]?.map change else registry.handles[other]? := by
  simp only [modifyHandle, List.getElem?_modify]
  by_cases same : other = number
  · simp [same]
  · have different : ¬number = other := fun equal => same equal.symm
    simp [same, different]

/-! ## Starts -/

section Starts

/-- What a start is waited for has got further. -/
theorem Serves.setProgress (serves : registry.Serves failures accounts (.acquiring language start))
    {progress : Progress} (promises : registry.Promises failures accounts language progress) :
    (registry.setProgress start progress).Serves failures accounts (.acquiring language start) where
  candid := serves.candid
  unheard := serves.unheard
  ready := serves.ready
  starting := serves.starting
  does := by
    obtain ⟨begun, found, isLanguage, -⟩ := serves.does
    refine ⟨{ begun with progress }, by simp [Registry.setProgress, found], isLanguage, ?_⟩
    cases progress with
    | settled outcome => cases outcome <;> exact promises
    | fresh => exact promises
    | waiting number => exact promises

theorem Promises.mono_rests {progress : Progress}
    (promises : registry.Promises failures accounts language progress)
    (rests : ∀ number, registry.Rests accounts language number →
      after.Rests accounts language number) :
    after.Promises failures accounts language progress := by
  cases progress with
  | settled outcome =>
      cases outcome with
      | ok number => exact rests number promises
      | error cause => exact promises
  | fresh => exact promises
  | waiting number => exact rests number promises

/-- The workers have changed, but those that rested still do. -/
theorem Serves.of_rests (serves : registry.Serves failures accounts (.acquiring language start))
    {handles : List Handle}
    (candid : ∀ (number : Nat) (handle : Handle), handles[number]? = some handle →
      handle.Candid failures)
    (unheard : ∀ number : Nat, handles[number]? = none → accounts number = {})
    (rests : ∀ language number, registry.Rests accounts language number →
      Rests { registry with handles } accounts language number) :
    Serves failures { registry with handles } accounts (.acquiring language start) where
  candid := candid
  unheard := unheard
  ready other number kept := by
    obtain ⟨old, found, isLanguage, excused | resting⟩ := serves.ready other number kept
    · contradiction
    · obtain ⟨new, foundNew, newLanguage, newRests⟩ := rests other number
        ⟨old, found, isLanguage, resting⟩
      exact ⟨new, foundNew, newLanguage, .inr newRests⟩
  starting := serves.starting
  does := by
    obtain ⟨begun, found, isLanguage, promises⟩ := serves.does
    exact ⟨begun, found, isLanguage, promises.mono_rests fun number => rests language number⟩

/-- A worker that is not ready yet has said something. -/
theorem Serves.modifyResting
    (serves : registry.Serves failures accounts (.acquiring language start))
    (found : registry.handles[number]? = some handle) (isLanguage : next.language = handle.language)
    (candid : next.Candid failures)
    (rests : handle.Rests (accounts number) → next.Rests (accounts number)) :
    (registry.modifyHandle number fun _ => next).Serves failures accounts
      (.acquiring language start) := by
  refine serves.of_rests ?_ ?_ ?_
  · intro other worker foundWorker
    have modified := registry.handles_modifyHandle number other fun _ => next
    rw [Registry.modifyHandle, foundWorker] at modified
    split at modified
    · obtain ⟨-, -, rfl⟩ := Option.map_eq_some_iff.mp modified.symm
      exact candid
    · exact serves.candid other worker modified.symm
  · intro other nothing
    apply serves.unheard other
    simpa using nothing
  · rintro language other ⟨worker, foundWorker, workerLanguage, workerRests⟩
    by_cases same : other = number
    · subst same
      rw [found] at foundWorker
      cases foundWorker
      exact ⟨next, by simp [found], isLanguage.trans workerLanguage, rests workerRests⟩
    · have different : ¬number = other := fun equal => same equal.symm
      exact ⟨worker, by simp [different, foundWorker], workerLanguage, workerRests⟩

/-- A worker is made. -/
theorem Serves.addHandle (serves : registry.Serves failures accounts (.acquiring language start))
    (launcher : Nat) :
    Serves failures { registry with handles := registry.handles ++ [{ language, launcher }] }
        accounts (.acquiring language start) ∧
      Rests { registry with handles := registry.handles ++ [{ language, launcher }] } accounts
        language registry.handles.length := by
  have unheard := serves.unheard registry.handles.length (List.getElem?_eq_none (Nat.le_refl _))
  refine ⟨serves.of_rests ?_ ?_ ?_, { language, launcher }, List.getElem?_concat_length, rfl, ?_⟩
  · intro number handle found
    by_cases below : number < registry.handles.length
    · rw [List.getElem?_append_left below] at found
      exact serves.candid number handle found
    · rw [List.getElem?_append_right (Nat.le_of_not_lt below)] at found
      rw [List.mem_singleton.mp (List.mem_of_getElem? found)]
      exact Handle.candid_fresh failures language launcher
  · intro number nothing
    refine serves.unheard number (List.getElem?_eq_none ?_)
    have beyond := List.getElem?_eq_none_iff.mp nothing
    rw [List.length_append] at beyond
    exact Nat.le_of_add_right_le beyond
  · rintro other number ⟨handle, found, isLanguage, rests⟩
    have below : number < registry.handles.length := (List.getElem?_eq_some_iff.mp found).1
    exact ⟨handle, (List.getElem?_append_left below).trans found, isLanguage, rests⟩
  · intro _
    rw [unheard]
    exact Strand.quiet_empty rfl rfl

/-- A start that is waited for takes a turn. -/
theorem Serves.turnStart (serves : registry.Serves failures accounts (.acquiring language start))
    (turned : registry.turnStart start = some after) :
    after.Serves failures accounts (.acquiring language start) := by
  obtain ⟨begun, found, isLanguage, promises⟩ := serves.does
  simp only [Registry.turnStart, found, Option.bind_eq_bind, Option.bind_some] at turned
  cases progress : begun.progress with
  | fresh =>
      simp only [progress, isLanguage] at turned
      cases turned
      obtain ⟨added, rests⟩ := serves.addHandle begun.launcher
      exact added.setProgress rests
  | waiting number =>
      simp only [progress] at turned promises
      obtain ⟨⟨worker, readiness⟩, looked, turned⟩ := Option.bind_eq_some_iff.mp turned
      obtain ⟨handle, foundHandle, isLooked⟩ := Option.bind_eq_some_iff.mp looked
      obtain ⟨sameLanguage, candid, rests, isOwn⟩ :=
        Handle.rests_turnReadiness (serves.candid number handle foundHandle) isLooked
      have heard := serves.modifyResting foundHandle sameLanguage candid rests
      cases readiness with
      | ready =>
          cases turned
          refine heard.setProgress ?_
          obtain ⟨same, foundSame, handleLanguage, resting⟩ := promises
          rw [foundHandle] at foundSame
          cases foundSame
          exact ⟨worker, by simp [Registry.modifyHandle, foundHandle],
            sameLanguage.trans handleLanguage, rests resting⟩
      | ignored =>
          cases turned
          exact heard
      | failed cause =>
          cases turned
          exact heard.failStart start number (isOwn cause rfl)
  | settled outcome =>
      simp only [progress] at turned
      contradiction

/-- A start that takes a turn changes nothing of what is kept. -/
theorem slots_turnStart (turned : registry.turnStart start = some after) :
    after.slots = registry.slots := by
  simp only [Registry.turnStart] at turned
  obtain ⟨begun, -, turned⟩ := Option.bind_eq_some_iff.mp turned
  split at turned
  · cases turned
    rfl
  · obtain ⟨⟨worker, readiness⟩, -, turned⟩ := Option.bind_eq_some_iff.mp turned
    cases readiness <;> cases turned <;> rfl
  · contradiction

/-- What is kept of the outcome of a start. -/
def kept : Except WorkerError Nat → Slot
  | .ok number => .ready number
  | .error cause => .failed cause

theorem slot?_collect (registry : Registry) (language other : String) (start : Nat)
    (outcome : Except WorkerError Nat) :
    (registry.collect language start outcome).slot? other =
      if other = language ∧ registry.slot? language = some (.starting start)
      then some (kept outcome) else registry.slot? other := by
  simp only [collect]
  split
  · rename_i waits
    cases outcome with
    | ok number => simp only [slot?_setSlot, waits, and_true, kept]
    | error cause => simp only [slot?_setSlot, waits, and_true, kept]
  · rename_i other
    rw [if_neg fun both => other both.2]

/-- The outcome of a start that was waited for is kept, and nothing is waited for any
more. -/
theorem Serves.collect (serves : registry.Serves failures accounts (.acquiring language start))
    {outcome : Except WorkerError Nat} (settled : registry.outcome? start = some outcome) :
    (registry.collect language start outcome).Serves failures accounts .idle ∧
      (∀ number, outcome = .ok number →
        (registry.collect language start outcome).Rests accounts language number) ∧
      ∀ cause, outcome = .error cause → cause.IsOwn failures := by
  obtain ⟨begun, found, isLanguage, promises⟩ := serves.does
  have progress : begun.progress = .settled outcome := by
    simp only [Registry.outcome?, found, Option.bind_eq_bind, Option.bind_some] at settled
    split at settled
    · rename_i same isSettled
      rw [isSettled, Option.some.inj settled]
    · contradiction
    · contradiction
  rw [progress] at promises
  have handles := registry.handles_collect language start outcome
  have resting (number : Nat) (isOk : outcome = .ok number) :
      (registry.collect language start outcome).Rests accounts language number := by
    subst isOk
    have rests : registry.Rests accounts language number := promises
    simpa only [Rests, handles] using rests
  refine ⟨⟨?_, ?_, ?_, ?_, trivial⟩, resting, ?_⟩
  · rw [handles]
    exact serves.candid
  · rw [handles]
    exact serves.unheard
  · intro other number isKept
    rw [slot?_collect] at isKept
    split at isKept
    · rename_i waited
      cases outcome with
      | ok same =>
          cases isKept
          obtain ⟨handle, foundHandle, handleLanguage, rests⟩ := resting number rfl
          exact ⟨handle, foundHandle, handleLanguage.trans waited.1.symm, .inr rests⟩
      | error cause => cases isKept
    · rw [handles]
      exact serves.ready other number isKept
  · intro other number isKept
    rw [slot?_collect] at isKept
    split at isKept
    · cases outcome <;> cases isKept
    · rename_i unwaited
      obtain ⟨rfl, rfl⟩ := serves.starting other number isKept
      exact absurd ⟨rfl, isKept⟩ unwaited
  · rintro cause rfl
    exact promises

/-- Somebody asks for the worker of a language while nothing is being done with one. -/
theorem Serves.acquire (serves : registry.Serves failures accounts .idle) (language : String)
    (launcher : Nat) (timeout : Duration) :
    (∃ number, registry.acquire language launcher timeout = (registry, .held number) ∧
        registry.Rests accounts language number) ∨
      ∃ after start, registry.acquire language launcher timeout = (after, .joined start) ∧
        after.handles = registry.handles ∧
        after.Serves failures accounts (.acquiring language start) := by
  have begins : Serves failures
      { registry.setSlot language (.starting registry.starts.length) with
        starts := registry.starts ++ [{ language, launcher, timeout }] }
      accounts (.acquiring language registry.starts.length) := by
    refine ⟨serves.candid, serves.unheard, ?_, ?_, ?_⟩
    · intro other number isKept
      have isKept : (registry.setSlot language (.starting registry.starts.length)).slot? other =
        some (.ready number) := isKept
      rw [slot?_setSlot] at isKept
      split at isKept
      · cases isKept
      · exact serves.ready other number isKept
    · intro other number isKept
      have isKept : (registry.setSlot language (.starting registry.starts.length)).slot? other =
        some (.starting number) := isKept
      rw [slot?_setSlot] at isKept
      split at isKept
      · rename_i same
        cases isKept
        exact ⟨same, rfl⟩
      · exact absurd (serves.starting other number isKept) id
    · exact ⟨{ language, launcher, timeout }, List.getElem?_concat_length, rfl, trivial⟩
  simp only [Registry.acquire]
  split
  · rename_i number isKept
    split
    · obtain ⟨handle, found, isLanguage, excused | rests⟩ := serves.ready language number isKept
      · contradiction
      · exact .inl ⟨number, rfl, handle, found, isLanguage, rests⟩
    · exact .inr ⟨_, _, rfl, rfl, begins⟩
  · rename_i number isKept
    exact absurd (serves.starting language number isKept) id
  · exact .inr ⟨_, _, rfl, rfl, begins⟩
  · exact .inr ⟨_, _, rfl, rfl, begins⟩

end Starts

/-! ## Runs -/

section Runs

/-- The run of somebody's code on a worker has got further. -/
theorem Serves.host (serves : registry.Serves failures accounts job)
    (excused : ∀ other worker, job.Excuses other worker → worker = number)
    (awaits : ∀ other worker, ¬job.Awaits other worker)
    (found : registry.handles[number]? = some handle) (isLanguage : next.language = language)
    (same : next.language = handle.language)
    {account : Account} (serving : next.Serves failures account run owner code) :
    (registry.modifyHandle number fun _ => next).Serves failures
      (fun other => if other = number then account else accounts other)
      (.running language number run owner code) where
  candid other worker foundWorker := by
    rw [handles_modifyHandle] at foundWorker
    split at foundWorker
    · obtain ⟨-, -, rfl⟩ := Option.map_eq_some_iff.mp foundWorker
      exact serving.candid
    · exact serves.candid other worker foundWorker
  unheard other nothing := by
    rw [handles_modifyHandle] at nothing
    split at nothing
    · rename_i isNumber
      rw [isNumber, found] at nothing
      contradiction
    · rename_i different
      simp only [if_neg different]
      exact serves.unheard other nothing
  ready other worker kept := by
    obtain ⟨old, foundOld, oldLanguage, excuse⟩ := serves.ready other worker kept
    by_cases isNumber : worker = number
    · subst isNumber
      rw [found] at foundOld
      cases foundOld
      exact ⟨next, by simp [handles_modifyHandle, found], same.trans oldLanguage, .inl rfl⟩
    · refine ⟨old, by simp [handles_modifyHandle, isNumber, foundOld], oldLanguage, ?_⟩
      simp only [if_neg isNumber]
      exact .inr (excuse.resolve_left fun excuses => isNumber (excused other worker excuses))
  starting other worker kept := absurd (serves.starting other worker kept) (awaits other worker)
  does := ⟨next, by simp [handles_modifyHandle, found], isLanguage, by simpa using serving⟩

/-- Code that was submitted to one worker. -/
theorem posts_modifyHandle (found : registry.handles[number]? = some handle) {codes : List String}
    (submits : next.codes = handle.codes ++ codes) (owner : Nat) (accounts : Nat → Account) :
    Posts owner registry.codes accounts (registry.modifyHandle number fun _ => next).codes
      fun other =>
        if other = number then (accounts number).post owner codes else accounts other := by
  refine posts_one ?_ ?_ owner accounts
  · simp [Registry.codes, handles_modifyHandle, found, submits]
  · intro other different
    simp [Registry.codes, handles_modifyHandle, different]

/-- Somebody's code becomes a run on a worker that rests. -/
theorem Serves.lend (serves : registry.Serves failures accounts .idle)
    (found : registry.handles[number]? = some handle)
    (rests : registry.Rests accounts language number) (desk : Desk) (broker owner : Nat)
    (code : String) :
    ∃ accounts', Posts owner registry.codes accounts
        (registry.modifyHandle number fun _ => (handle.run desk broker code).2.1).codes accounts' ∧
      (registry.modifyHandle number fun _ => (handle.run desk broker code).2.1).Serves failures
        accounts' (.running language number handle.runs.length owner code) := by
  obtain ⟨same, foundSame, isLanguage, resting⟩ := rests
  rw [found] at foundSame
  cases foundSame
  obtain ⟨codes, submitted, serving⟩ :=
    Handle.serves_run (serves.candid number handle found) resting desk broker owner code
  have sameLanguage := handle.language_run desk broker code
  exact ⟨_, posts_modifyHandle found submitted owner accounts,
    serves.host (fun _ _ excuses => absurd excuses id) (fun _ _ => id) found
      (sameLanguage.trans isLanguage) sameLanguage serving⟩

/-- A run that is over leaves a worker that rests, and has a result that is its owner's. -/
theorem Serves.finished
    (serves : registry.Serves failures accounts (.running language number run owner code))
    (found : registry.handles[number]? = some handle) {result : RunResult}
    (ended : handle.result? run = some result) :
    registry.Serves failures accounts .idle ∧
      (accounts number).Yields failures owner code result := by
  obtain ⟨same, foundSame, isLanguage, -, ⟨began, foundRun, isCode, stands⟩⟩ := serves.does
  rw [found] at foundSame
  cases foundSame
  have phase : began.phase = .finished result := by
    simp only [Handle.result?, Handle.phase?, foundRun, Option.map_some] at ended
    split at ended
    · rename_i same isFinished
      rw [Option.some.inj isFinished, Option.some.inj ended]
    · contradiction
  rw [phase] at stands
  refine ⟨⟨serves.candid, serves.unheard, ?_, fun other worker kept =>
    absurd (serves.starting other worker kept) id, trivial⟩, stands.2⟩
  intro other worker kept
  obtain ⟨old, foundOld, oldLanguage, excused | rests⟩ := serves.ready other worker kept
  · obtain rfl : worker = number := excused
    rw [found] at foundOld
    cases foundOld
    exact ⟨handle, found, oldLanguage, .inr stands.1⟩
  · exact ⟨old, foundOld, oldLanguage, .inr rests⟩

/-- Nobody knows any more what is being done with the worker of a language. -/
theorem Serves.leave (serves : registry.Serves failures accounts job)
    (isLanguage : ∀ other, job.language? = some other → other = language) :
    registry.Serves failures accounts (.gone language) where
  candid := serves.candid
  unheard := serves.unheard
  ready other number kept := by
    obtain ⟨handle, found, handleLanguage, excused | rests⟩ := serves.ready other number kept
    · refine ⟨handle, found, handleLanguage, .inl ?_⟩
      cases job with
      | running same worker run owner code =>
          obtain ⟨lent, foundLent, lentLanguage, -⟩ := serves.does
          obtain rfl : number = worker := excused
          rw [found] at foundLent
          cases foundLent
          exact (handleLanguage.symm.trans lentLanguage).trans (isLanguage same rfl)
      | gone same => exact Eq.trans excused (isLanguage same rfl)
      | idle => contradiction
      | acquiring same start => contradiction
    · exact ⟨handle, found, handleLanguage, .inr rests⟩
  starting other number kept := by
    have awaits := serves.starting other number kept
    cases job with
    | acquiring same start => exact awaits.1.trans (isLanguage same rfl)
    | gone same => exact Eq.trans awaits (isLanguage same rfl)
    | idle => contradiction
    | running same worker run owner code => contradiction
  does := trivial

/-- A language for which nothing is kept is one that nothing is being done with. -/
theorem Serves.rest (serves : registry.Serves failures accounts (.gone language))
    (nothing : registry.slot? language = none) : registry.Serves failures accounts .idle where
  candid := serves.candid
  unheard := serves.unheard
  ready other number kept := by
    obtain ⟨handle, found, handleLanguage, excused | rests⟩ := serves.ready other number kept
    · obtain rfl : other = language := excused
      rw [nothing] at kept
      contradiction
    · exact ⟨handle, found, handleLanguage, .inr rests⟩
  starting other number kept := by
    obtain rfl : other = language := serves.starting other number kept
    rw [nothing] at kept
    contradiction
  does := trivial

end Runs

end Polyglot.Worker.Registry
