import Polyglot.Proofs.Worker.Run

/-!
# Registries that lend quiet workers

A worker that is kept for a language is quiet, or given up, unless it has just been lent
to the executor of that language.  So whoever is lent a worker has it alone, and it has
nothing left to say of an earlier run.
-/

namespace Polyglot.Worker

/-- What is being done with the worker of a language. -/
inductive Job where
  | idle
  /-- The start of that number is waited for. -/
  | acquiring (language : String) (start : Nat)
  /-- Somebody's code is the run of that number on the worker of that number. -/
  | running (language : String) (handle run owner : Nat) (code : String)
  /-- Nobody knows, and the language is about to be shut down. -/
  | gone (language : String)

namespace Job

/-- Whether the worker that is kept for a language may not be quiet. -/
def Excuses : Job → String → Nat → Prop
  | .running _ handle _ _ _, _, number => number = handle
  | .gone language, other, _ => other = language
  | .idle, _, _ | .acquiring _ _, _, _ => False

/-- Whether a start may be what is kept for a language. -/
def Awaits : Job → String → Nat → Prop
  | .acquiring language start, other, number => other = language ∧ number = start
  | .gone language, other, _ => other = language
  | .idle, _, _ | .running _ _ _ _ _, _, _ => False

/-- The language of the worker. -/
def language? : Job → Option String
  | .acquiring language _ | .running language _ _ _ _ | .gone language => some language
  | .idle => none

end Job

namespace Registry

/-! ## What is kept -/

section Slots

variable (registry : Registry) (language other : String) (slot : Slot)

theorem slot?_forget :
    (registry.forget language).slot? other =
      if other = language then none else registry.slot? other := by
  simp only [slot?, forget, List.find?_filter]
  by_cases same : other = language
  · rw [if_pos same, Option.map_eq_none_iff, List.find?_eq_none]
    simp [same]
  · rw [if_neg same]
    congr 2
    funext entry
    by_cases isOther : entry.1 = other <;> simp [isOther, same]

theorem slot?_setSlot :
    (registry.setSlot language slot).slot? other =
      if other = language then some slot else registry.slot? other := by
  have forgotten := registry.slot?_forget language other
  simp only [slot?] at forgotten
  simp only [slot?, setSlot, List.find?_append, List.find?_singleton, Option.map_or, forgotten]
  by_cases same : other = language
  · simp [same]
  · have different : ¬language = other := fun equal => same equal.symm
    simp [same, different]

end Slots

/-! ## Registries in use -/

/-- A worker is one of a language, and quiet if it can be given work. -/
def Rests (registry : Registry) (accounts : Nat → Account) (language : String) (number : Nat) :
    Prop :=
  ∃ handle : Handle, registry.handles[number]? = some handle ∧ handle.language = language ∧
    handle.Rests (accounts number)

/-- What holds of a start of a worker that is that far. -/
def Promises (failures : List TransportError) (registry : Registry) (accounts : Nat → Account)
    (language : String) : Progress → Prop
  | .fresh => True
  | .waiting number | .settled (.ok number) => registry.Rests accounts language number
  | .settled (.error cause) => cause.IsOwn failures

/-- What holds of the worker that something is being done with. -/
def Does (failures : List TransportError) (registry : Registry) (accounts : Nat → Account) :
    Job → Prop
  | .acquiring language number =>
    ∃ start : Start, registry.starts[number]? = some start ∧ start.language = language ∧
      registry.Promises failures accounts language start.progress
  | .running language number run owner code =>
    ∃ handle : Handle, registry.handles[number]? = some handle ∧ handle.language = language ∧
      handle.Serves failures (accounts number) run owner code
  | .idle | .gone _ => True

/-- A registry that is used by one executor at a time. -/
structure Serves (failures : List TransportError) (registry : Registry)
    (accounts : Nat → Account) (job : Job) : Prop where
  candid : ∀ (number : Nat) (handle : Handle), registry.handles[number]? = some handle →
    handle.Candid failures
  unheard : ∀ number : Nat, registry.handles[number]? = none → accounts number = {}
  ready : ∀ language number, registry.slot? language = some (.ready number) →
    ∃ handle : Handle, registry.handles[number]? = some handle ∧ handle.language = language ∧
      (job.Excuses language number ∨ handle.Rests (accounts number))
  starting : ∀ language number, registry.slot? language = some (.starting number) →
    job.Awaits language number
  does : registry.Does failures accounts job

section Serves

variable {registry after : Registry} {accounts accounts' : Nat → Account}
  {failures more : List TransportError} {job : Job} {language code : String}
  {number start run owner : Nat}

/-- A registry that was just made. -/
theorem serves_empty (failures : List TransportError) : Serves failures {} (fun _ => {}) .idle where
  candid _ _ found := by simp at found
  unheard _ _ := rfl
  ready _ _ kept := by simp [slot?] at kept
  starting _ _ kept := by simp [slot?] at kept
  does := trivial

theorem Promises.mono {progress : Progress}
    (promises : registry.Promises failures accounts language progress)
    (subset : failures ⊆ more) : registry.Promises more accounts language progress := by
  cases progress with
  | settled outcome =>
      cases outcome with
      | ok number => exact promises
      | error cause => exact WorkerError.IsOwn.mono promises subset
  | fresh => exact promises
  | waiting number => exact promises

theorem Serves.mono (serves : registry.Serves failures accounts job) (subset : failures ⊆ more) :
    registry.Serves more accounts job where
  candid number handle found := (serves.candid number handle found).mono subset
  unheard := serves.unheard
  ready := serves.ready
  starting := serves.starting
  does := by
    cases job with
    | acquiring language start =>
        obtain ⟨found, foundStart, isLanguage, promises⟩ := serves.does
        exact ⟨found, foundStart, isLanguage, promises.mono subset⟩
    | running language number run owner code =>
        obtain ⟨handle, found, isLanguage, serving⟩ := serves.does
        exact ⟨handle, found, isLanguage, serving.mono subset⟩
    | idle => trivial
    | gone language => trivial

/-! ## What happens while the job stands still -/

/-- What can happen to a registry and the accounts of its interpreters while no executor
does anything. -/
structure Drifts (failures : List TransportError) (before : Registry) (accounts : Nat → Account)
    (after : Registry) (accounts' : Nat → Account) : Prop where
  slots : ∀ language slot, after.slot? language = some slot → before.slot? language = some slot
  starts : ∀ (number : Nat) (start : Start), before.starts[number]? = some start →
    ∃ next : Start, after.starts[number]? = some next ∧ next.language = start.language ∧
      (next.progress = start.progress ∨
        ∃ cause : WorkerError, next.progress = .settled (.error cause) ∧ cause.IsOwn failures)
  handles : ∀ number : Nat, (before.handles[number]? = none ∧ after.handles[number]? = none ∧
      accounts' number = accounts number) ∨
    ∃ handle next : Handle,
      before.handles[number]? = some handle ∧ after.handles[number]? = some next ∧
      handle.Drifts failures (accounts number) next (accounts' number)

theorem Drifts.refl (failures : List TransportError) (registry : Registry)
    (accounts : Nat → Account) : Drifts failures registry accounts registry accounts where
  slots _ _ kept := kept
  starts _ start found := ⟨start, found, rfl, .inl rfl⟩
  handles number := by
    cases found : registry.handles[number]? with
    | none => exact .inl ⟨rfl, rfl, rfl⟩
    | some handle => exact .inr ⟨handle, handle, rfl, rfl, .refl failures handle _⟩

theorem Drifts.found (drifts : registry.Drifts failures accounts after accounts')
    {handle : Handle} (found : registry.handles[number]? = some handle) :
    ∃ next : Handle, after.handles[number]? = some next ∧
      handle.Drifts failures (accounts number) next (accounts' number) := by
  rcases drifts.handles number with ⟨nothing, -, -⟩ | ⟨same, next, foundSame, foundNext, drift⟩
  · rw [found] at nothing
    contradiction
  · rw [found] at foundSame
    cases foundSame
    exact ⟨next, foundNext, drift⟩

theorem Rests.drifts (rests : registry.Rests accounts language number)
    (drifts : registry.Drifts failures accounts after accounts') :
    after.Rests accounts' language number := by
  obtain ⟨handle, found, isLanguage, rests⟩ := rests
  obtain ⟨next, foundNext, drift⟩ := drifts.found found
  exact ⟨next, foundNext, drift.language.trans isLanguage, rests.drifts drift⟩

/-- Whatever else happens to a registry, what is being done with it stays what it is. -/
theorem Serves.drifts (serves : registry.Serves failures accounts job)
    (drifts : registry.Drifts failures accounts after accounts') :
    after.Serves failures accounts' job where
  candid number next foundNext := by
    rcases drifts.handles number with ⟨-, nothing, -⟩ | ⟨handle, same, found, foundSame, drift⟩
    · rw [foundNext] at nothing
      contradiction
    · rw [foundNext] at foundSame
      cases foundSame
      exact drift.candid (serves.candid number handle found)
  unheard number nothing := by
    rcases drifts.handles number with ⟨wasNothing, -, same⟩ | ⟨handle, next, -, foundNext, -⟩
    · rw [same, serves.unheard number wasNothing]
    · rw [nothing] at foundNext
      contradiction
  ready language number kept := by
    obtain ⟨handle, found, isLanguage, rests⟩ :=
      serves.ready language number (drifts.slots language _ kept)
    obtain ⟨next, foundNext, drift⟩ := drifts.found found
    exact ⟨next, foundNext, drift.language.trans isLanguage,
      rests.imp id fun rests => rests.drifts drift⟩
  starting language number kept := serves.starting language number (drifts.slots language _ kept)
  does := by
    cases job with
    | acquiring language number =>
        obtain ⟨start, found, isLanguage, promises⟩ := serves.does
        obtain ⟨next, foundNext, sameLanguage, progress⟩ := drifts.starts number start found
        refine ⟨next, foundNext, sameLanguage.trans isLanguage, ?_⟩
        rcases progress with same | ⟨cause, failed, isOwn⟩
        · rw [same]
          cases progress : start.progress with
          | fresh => trivial
          | waiting handle =>
              rw [progress] at promises
              exact Rests.drifts promises drifts
          | settled outcome =>
              rw [progress] at promises
              cases outcome with
              | ok handle => exact Rests.drifts promises drifts
              | error cause => exact promises
        · rw [failed]
          exact isOwn
    | running language number run owner code =>
        obtain ⟨handle, found, isLanguage, serving⟩ := serves.does
        obtain ⟨next, foundNext, drift⟩ := drifts.found found
        exact ⟨next, foundNext, drift.language.trans isLanguage, serving.drifts drift⟩
    | idle => trivial
    | gone language => trivial

/-- Something happens to one worker. -/
theorem drifts_modifyHandle {change : Handle → Handle} {account : Account}
    (drifts : ∀ handle, registry.handles[number]? = some handle →
      handle.Drifts failures (accounts number) (change handle) account)
    (nothing : registry.handles[number]? = none → account = accounts number) :
    registry.Drifts failures accounts (registry.modifyHandle number change)
      fun other => if other = number then account else accounts other where
  slots _ _ kept := kept
  starts _ start found := ⟨start, found, rfl, .inl rfl⟩
  handles other := by
    simp only [modifyHandle, List.getElem?_modify]
    by_cases same : other = number
    · subst same
      simp only [if_true]
      cases found : registry.handles[other]? with
      | none => exact .inl ⟨rfl, rfl, nothing found⟩
      | some handle => exact .inr ⟨handle, _, rfl, by simp, drifts handle found⟩
    · have different : ¬number = other := fun equal => same equal.symm
      simp only [if_neg same, if_neg different]
      cases found : registry.handles[other]? with
      | none => exact .inl ⟨rfl, rfl, trivial⟩
      | some handle => exact .inr ⟨handle, handle, rfl, rfl, .refl failures handle _⟩

/-- Accounts that are changed at one worker to what they were. -/
theorem accounts_same (accounts : Nat → Account) (number : Nat) :
    (fun other => if other = number then accounts number else accounts other) = accounts := by
  funext other
  split
  · rename_i same
    rw [same]
  · rfl

/-- Something happens to one worker, and its interpreter has no part in it. -/
theorem Serves.modifyHandle (serves : registry.Serves failures accounts job)
    {change : Handle → Handle}
    (drifts : ∀ (handle : Handle) (account : Account),
      handle.Drifts failures account (change handle) account)
    (number : Nat) : (registry.modifyHandle number change).Serves failures accounts job := by
  have drifted := serves.drifts (drifts_modifyHandle
    (fun handle _ => drifts handle (accounts number)) fun _ => rfl)
  rwa [accounts_same] at drifted

/-- A start has failed. -/
theorem Serves.fail (serves : registry.Serves failures accounts job) (start : Nat)
    {cause : WorkerError} (isOwn : cause.IsOwn failures) :
    (registry.setProgress start (.settled (.error cause))).Serves failures accounts job := by
  refine serves.drifts ⟨fun _ _ kept => kept, ?_, (Drifts.refl failures registry accounts).handles⟩
  intro other begun found
  simp only [setProgress, List.getElem?_modify, found]
  by_cases same : start = other
  · exact ⟨{ begun with progress := .settled (.error cause) }, by simp [same], rfl,
      .inr ⟨cause, rfl, isOwn⟩⟩
  · exact ⟨begun, by simp [same], rfl, .inl rfl⟩

theorem Serves.failStart (serves : registry.Serves failures accounts job) (start handle : Nat)
    {cause : WorkerError} (isOwn : cause.IsOwn failures) :
    (registry.failStart start handle cause).Serves failures accounts job :=
  (serves.modifyHandle (Handle.drifts_drop failures) handle).fail start isOwn

theorem Serves.expire (serves : registry.Serves failures accounts job) (start : Nat) :
    (registry.expire start).Serves failures accounts job := by
  simp only [Registry.expire]
  split
  · exact serves
  · split
    · exact serves.failStart start _ trivial
    · exact serves
    · exact serves

theorem Serves.stop (serves : registry.Serves failures accounts job) (slot : Slot) :
    (registry.stop slot).Serves failures accounts job := by
  cases slot with
  | ready handle => exact serves.modifyHandle (Handle.drifts_terminate failures) handle
  | starting start => exact serves
  | failed cause => exact serves

/-- What is kept for some languages is forgotten. -/
theorem Serves.forgetSlots (serves : registry.Serves failures accounts job)
    {slots : List (String × Slot)}
    (fewer : ∀ language slot, slot? { registry with slots } language = some slot →
      registry.slot? language = some slot) :
    Serves failures { registry with slots } accounts job :=
  serves.drifts ⟨fewer, (Drifts.refl failures registry accounts).starts,
    (Drifts.refl failures registry accounts).handles⟩

theorem Serves.shutdown (serves : registry.Serves failures accounts job) (language : String) :
    (registry.shutdown language).1.Serves failures accounts job := by
  simp only [Registry.shutdown]
  split
  · exact serves
  · refine Serves.stop (serves.forgetSlots ?_) _
    intro other slot kept
    have forgotten := registry.slot?_forget language other
    simp only [Registry.forget] at forgotten
    rw [forgotten] at kept
    split at kept
    · contradiction
    · exact kept

/-- What holds where everything is forgotten, and stays when a worker is stopped, holds after
every worker was stopped. -/
theorem shutdownAll_induction {motive : Registry → Prop} (registry : Registry)
    (forgotten : motive { registry with slots := [] })
    (stopped : ∀ middle slot, motive middle → motive (middle.stop slot)) :
    motive registry.shutdownAll := by
  simp only [Registry.shutdownAll]
  generalize registry.slots = slots
  generalize { registry with slots := [] } = middle at forgotten
  induction slots generalizing middle with
  | nil => exact forgotten
  | cons entry slots ih => exact ih _ (stopped middle entry.2 forgotten)

theorem Serves.shutdownAll (serves : registry.Serves failures accounts job) :
    registry.shutdownAll.Serves failures accounts job :=
  registry.shutdownAll_induction (motive := (Serves failures · accounts job))
    (serves.forgetSlots fun language slot kept => by simp [slot?] at kept)
    fun _ slot serves => serves.stop slot

@[simp] theorem slot?_stop (registry : Registry) (slot : Slot) (language : String) :
    (registry.stop slot).slot? language = registry.slot? language := by
  cases slot <;> rfl

theorem slot?_shutdown (registry : Registry) (language other : String) :
    (registry.shutdown language).1.slot? other =
      if other = language then none else registry.slot? other := by
  simp only [Registry.shutdown]
  split
  · rename_i nothing
    split
    · rename_i same
      rw [same, nothing]
    · rfl
  · rw [slot?_stop, slot?_forget]

theorem slot?_shutdownAll (registry : Registry) (language : String) :
    registry.shutdownAll.slot? language = none :=
  registry.shutdownAll_induction (motive := fun after => after.slot? language = none) rfl
    fun middle slot nothing => (middle.slot?_stop slot language).trans nothing

end Serves

end Registry

end Polyglot.Worker
