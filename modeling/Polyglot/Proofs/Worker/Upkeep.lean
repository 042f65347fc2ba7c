import Polyglot.Proofs.Worker.Lending
import Polyglot.Proofs.Worker.Moves

/-!
# The upkeep of a registry

Whatever is done with a registry, a start keeps its outcome and a worker that is dead stays dead.
Every start has a worker of its own, and what is kept for a language came of a start of that
language.
-/

namespace Polyglot.Worker

/-- The worker that a start waits for or has come to. -/
def Progress.handle? : Progress → Option Nat
  | .waiting handle | .settled (.ok handle) => some handle
  | .fresh | .settled (.error _) => none

/-- What becomes of a start. -/
structure Start.Advances (before after : Start) : Prop where
  language : after.language = before.language
  settled : ∀ outcome, before.progress = .settled outcome → after.progress = .settled outcome

theorem Start.Advances.refl (start : Start) : start.Advances start := ⟨rfl, fun _ => id⟩

/-- What holds of an element of a list holds of whatever else stands in its place. -/
theorem forall_of_getElem? {α : Type} {list : List α} {index : Nat} {element : α}
    {holds : α → Prop} (found : list[index]? = some element) (own : holds element) :
    ∀ other, list[index]? = some other → holds other := by
  intro other isOther
  rw [found] at isOther
  cases isOther
  exact own

namespace Registry

/-- What becomes of a registry. -/
structure Succeeds (before after : Registry) : Prop where
  starts : ∀ (number : Nat) (start : Start), before.starts[number]? = some start →
    ∃ next : Start, after.starts[number]? = some next ∧ start.Advances next
  handles : ∀ (number : Nat) (handle : Handle), before.handles[number]? = some handle →
    ∃ next : Handle, after.handles[number]? = some next ∧ handle.Wanes next

/-- A registry where starts and workers are told apart. -/
structure Tidy (registry : Registry) : Prop where
  starting : ∀ language number, registry.slot? language = some (.starting number) →
    ∃ start : Start, registry.starts[number]? = some start ∧ start.language = language
  ready : ∀ language handle, registry.slot? language = some (.ready handle) →
    ∃ (number : Nat) (start : Start), registry.starts[number]? = some start ∧
      start.language = language ∧ start.progress = .settled (.ok handle)
  worker : ∀ (number : Nat) (start : Start) (handle : Nat),
    registry.starts[number]? = some start → start.progress.handle? = some handle →
    ∃ found : Handle, registry.handles[handle]? = some found ∧ found.language = start.language
  apart : ∀ (first second : Nat) (start other : Start) (handle : Nat),
    registry.starts[first]? = some start → registry.starts[second]? = some other →
    start.progress.handle? = some handle → other.progress.handle? = some handle → first = second

/-- Whether a new start has to begin for a language: nothing is kept for it, or a failure, or a
worker that is dead. -/
def IsVacant (registry : Registry) (language : String) : Prop :=
  match registry.slot? language with
  | none | some (.failed _) => True
  | some (.ready handle) => registry.isAlive handle = false
  | some (.starting _) => False

variable {registry before middle after : Registry} {language : String} {number handle : Nat}

/-! ## What lasts -/

section Succeeds

theorem Succeeds.refl (registry : Registry) : registry.Succeeds registry where
  starts _ start found := ⟨start, found, .refl start⟩
  handles _ handle found := ⟨handle, found, .refl handle⟩

theorem Succeeds.trans (first : before.Succeeds middle) (second : middle.Succeeds after) :
    before.Succeeds after where
  starts number start found := by
    obtain ⟨between, foundBetween, once⟩ := first.starts number start found
    obtain ⟨next, foundNext, again⟩ := second.starts number between foundBetween
    exact ⟨next, foundNext, again.language.trans once.language,
      fun outcome settled => again.settled outcome (once.settled outcome settled)⟩
  handles number handle found := by
    obtain ⟨between, foundBetween, once⟩ := first.handles number handle found
    obtain ⟨next, foundNext, again⟩ := second.handles number between foundBetween
    exact ⟨next, foundNext, once.trans again⟩

theorem outcome?_eq_some {outcome : Except WorkerError Nat} :
    registry.outcome? number = some outcome ↔
      ∃ start : Start, registry.starts[number]? = some start ∧
        start.progress = .settled outcome := by
  simp only [outcome?]
  cases registry.starts[number]? with
  | none => simp
  | some start => cases progress : start.progress <;> simp [progress]

/-- A start that is over keeps its outcome. -/
theorem Succeeds.outcome? (succeeds : before.Succeeds after) {outcome : Except WorkerError Nat}
    (settled : before.outcome? number = some outcome) : after.outcome? number = some outcome := by
  obtain ⟨start, found, progress⟩ := outcome?_eq_some.mp settled
  obtain ⟨next, foundNext, advances⟩ := succeeds.starts number start found
  exact outcome?_eq_some.mpr ⟨next, foundNext, advances.settled outcome progress⟩

/-- A worker that is alive has been alive ever since it was there. -/
theorem Succeeds.isAlive (succeeds : before.Succeeds after) {found : Handle}
    (wasThere : before.handles[handle]? = some found) (isAlive : after.isAlive handle = true) :
    before.isAlive handle = true := by
  obtain ⟨next, foundNext, wanes⟩ := succeeds.handles handle found wasThere
  rw [Registry.isAlive, foundNext] at isAlive
  rw [Registry.isAlive, wasThere]
  exact wanes.isAlive isAlive

theorem Succeeds.length_starts (succeeds : before.Succeeds after) :
    before.starts.length ≤ after.starts.length := by
  refine Nat.le_of_not_lt fun fewer => ?_
  obtain ⟨next, found, -⟩ := succeeds.starts after.starts.length _ (List.getElem?_eq_getElem fewer)
  simp at found

theorem succeeds_modifyHandle {change : Handle → Handle}
    (wanes : ∀ found, registry.handles[handle]? = some found → found.Wanes (change found)) :
    registry.Succeeds (registry.modifyHandle handle change) where
  starts := (Succeeds.refl registry).starts
  handles number found isFound := by
    rw [handles_modifyHandle, isFound]
    split
    · rename_i same
      subst same
      exact ⟨change found, rfl, wanes found isFound⟩
    · exact ⟨found, rfl, .refl found⟩

/-- A start that is not over gets further. -/
theorem succeeds_setProgress {start : Start} {progress : Progress}
    (found : registry.starts[number]? = some start)
    (goesOn : ∀ outcome, start.progress ≠ .settled outcome) :
    registry.Succeeds (registry.setProgress number progress) where
  starts other begun isFound := by
    simp only [setProgress, List.getElem?_modify, isFound]
    by_cases same : number = other
    · subst same
      rw [found] at isFound
      cases isFound
      exact ⟨{ start with progress }, by simp, rfl,
        fun outcome settled => absurd settled (goesOn outcome)⟩
    · exact ⟨begun, by simp [same], .refl begun⟩
  handles := (Succeeds.refl registry).handles

theorem succeeds_setSlot (registry : Registry) (language : String) (slot : Slot) :
    registry.Succeeds (registry.setSlot language slot) :=
  ⟨(Succeeds.refl registry).starts, (Succeeds.refl registry).handles⟩

theorem succeeds_collect (registry : Registry) (language : String) (number : Nat)
    (outcome : Except WorkerError Nat) :
    registry.Succeeds (registry.collect language number outcome) := by
  simp only [collect]
  split
  · cases outcome <;> exact succeeds_setSlot ..
  · exact .refl registry

theorem succeeds_stop (registry : Registry) (slot : Slot) :
    registry.Succeeds (registry.stop slot) := by
  cases slot with
  | ready handle => exact succeeds_modifyHandle fun found _ => found.wanes_terminate
  | starting number => exact .refl registry
  | failed cause => exact .refl registry

theorem succeeds_failStart {start : Start} {cause : WorkerError}
    (found : registry.starts[number]? = some start)
    (goesOn : ∀ outcome, start.progress ≠ .settled outcome) (handle : Nat) :
    registry.Succeeds (registry.failStart number handle cause) :=
  (succeeds_modifyHandle fun found _ => found.wanes_drop).trans (succeeds_setProgress found goesOn)

theorem succeeds_expire (registry : Registry) (number : Nat) :
    registry.Succeeds (registry.expire number) := by
  simp only [expire]
  split
  · exact .refl registry
  · rename_i start found
    split
    · rename_i handle progress
      exact succeeds_failStart found (by simp [progress]) handle
    · exact .refl registry
    · exact .refl registry

theorem succeeds_turnStart (turned : registry.turnStart number = some after) :
    registry.Succeeds after := by
  simp only [turnStart] at turned
  obtain ⟨start, found, turned⟩ := Option.bind_eq_some_iff.mp turned
  split at turned
  · rename_i progress
    cases turned
    have added : registry.Succeeds { registry with handles := registry.handles ++
        [{ language := start.language, launcher := start.launcher }] } :=
      ⟨(Succeeds.refl registry).starts, fun other worker isFound =>
        ⟨worker, List.getElem?_append_left (List.getElem?_eq_some_iff.mp isFound).1 ▸ isFound,
          .refl worker⟩⟩
    exact added.trans (succeeds_setProgress found (by simp [progress]))
  · rename_i handle progress
    obtain ⟨⟨worker, readiness⟩, ready, turned⟩ := Option.bind_eq_some_iff.mp turned
    obtain ⟨waited, isWaited, ready⟩ := Option.bind_eq_some_iff.mp ready
    have moved : registry.Succeeds (registry.modifyHandle handle fun _ => worker) :=
      succeeds_modifyHandle (forall_of_getElem? isWaited (Handle.wanes_turnReadiness ready))
    have goesOn : ∀ outcome, start.progress ≠ .settled outcome := by simp [progress]
    cases readiness with
    | ready =>
        cases turned
        exact moved.trans (succeeds_setProgress found goesOn)
    | ignored =>
        cases turned
        exact moved
    | failed cause =>
        cases turned
        have sameStart : (registry.modifyHandle handle fun _ => worker).starts[number]? =
            some start := found
        exact moved.trans (succeeds_failStart sameStart goesOn handle)
  · contradiction

theorem succeeds_shutdown (registry : Registry) (language : String) :
    registry.Succeeds (registry.shutdown language).1 := by
  simp only [shutdown]
  split
  · exact .refl registry
  · have forgotten : registry.Succeeds (registry.forget language) :=
      ⟨(Succeeds.refl registry).starts, (Succeeds.refl registry).handles⟩
    exact forgotten.trans (succeeds_stop ..)

theorem succeeds_shutdownAll (registry : Registry) : registry.Succeeds registry.shutdownAll :=
  registry.shutdownAll_induction (motive := registry.Succeeds)
    ⟨(Succeeds.refl registry).starts, (Succeeds.refl registry).handles⟩
    fun middle slot succeeds => succeeds.trans (succeeds_stop middle slot)

theorem succeeds_acquire (registry : Registry) (language : String) (launcher : Nat)
    (timeout : Duration) : registry.Succeeds (registry.acquire language launcher timeout).1 := by
  have begun : registry.Succeeds { registry.setSlot language (.starting registry.starts.length) with
      starts := registry.starts ++ [{ language, launcher, timeout }] } :=
    ⟨fun other start isFound =>
      ⟨start, List.getElem?_append_left (List.getElem?_eq_some_iff.mp isFound).1 ▸ isFound,
        .refl start⟩, (Succeeds.refl registry).handles⟩
  simp only [acquire]
  split
  · split
    · exact .refl registry
    · exact begun
  · exact .refl registry
  · exact begun
  · exact begun

end Succeeds

/-! ## How many starts there are -/

section Length

@[simp] theorem length_setProgress (registry : Registry) (number : Nat) (progress : Progress) :
    (registry.setProgress number progress).starts.length = registry.starts.length :=
  List.length_modify ..

@[simp] theorem length_failStart (registry : Registry) (number handle : Nat)
    (cause : WorkerError) :
    (registry.failStart number handle cause).starts.length = registry.starts.length :=
  List.length_modify ..

theorem length_expire (registry : Registry) (number : Nat) :
    (registry.expire number).starts.length = registry.starts.length := by
  simp only [expire]
  split
  · rfl
  · split <;> simp

theorem length_turnStart (turned : registry.turnStart number = some after) :
    after.starts.length = registry.starts.length := by
  simp only [turnStart] at turned
  obtain ⟨start, -, turned⟩ := Option.bind_eq_some_iff.mp turned
  split at turned
  · cases turned
    exact length_setProgress ..
  · obtain ⟨⟨worker, readiness⟩, -, turned⟩ := Option.bind_eq_some_iff.mp turned
    cases readiness <;> cases turned
    · exact length_setProgress ..
    · rfl
    · exact length_failStart ..
  · contradiction

@[simp] theorem starts_collect (registry : Registry) (language : String) (number : Nat)
    (outcome : Except WorkerError Nat) :
    (registry.collect language number outcome).starts = registry.starts := by
  simp only [collect]
  split
  · cases outcome <;> rfl
  · rfl

@[simp] theorem starts_stop (registry : Registry) (slot : Slot) :
    (registry.stop slot).starts = registry.starts := by
  cases slot <;> rfl

@[simp] theorem starts_shutdown (registry : Registry) (language : String) :
    (registry.shutdown language).1.starts = registry.starts := by
  simp only [shutdown]
  split
  · rfl
  · rw [starts_stop]
    rfl

@[simp] theorem starts_shutdownAll (registry : Registry) :
    registry.shutdownAll.starts = registry.starts :=
  registry.shutdownAll_induction (motive := fun after => after.starts = registry.starts) rfl
    fun middle slot same => (starts_stop middle slot).trans same

end Length

/-! ## What is kept apart -/

section Tidy

theorem tidy_empty : Tidy {} where
  starting _ _ kept := by simp [slot?] at kept
  ready _ _ kept := by simp [slot?] at kept
  worker _ _ _ found := by simp at found
  apart _ _ _ _ _ found := by simp at found

/-- Nothing is kept that was not kept before. -/
theorem Tidy.of_slots (tidy : registry.Tidy)
    (fewer : ∀ language slot, after.slot? language = some slot →
      registry.slot? language = some slot)
    (sameStarts : after.starts = registry.starts) (sameHandles : after.handles = registry.handles) :
    after.Tidy where
  starting language number kept := by
    rw [sameStarts]
    exact tidy.starting language number (fewer language _ kept)
  ready language handle kept := by
    rw [sameStarts]
    exact tidy.ready language handle (fewer language _ kept)
  worker := by
    rw [sameStarts, sameHandles]
    exact tidy.worker
  apart := by
    rw [sameStarts]
    exact tidy.apart

theorem Tidy.modifyHandle (tidy : registry.Tidy) {change : Handle → Handle}
    (wanes : ∀ found, registry.handles[handle]? = some found → found.Wanes (change found)) :
    (registry.modifyHandle handle change).Tidy where
  starting := tidy.starting
  ready := tidy.ready
  worker number start other found hasHandle := by
    obtain ⟨worker, isWorker, isLanguage⟩ := tidy.worker number start other found hasHandle
    obtain ⟨next, isNext, waned⟩ := (succeeds_modifyHandle wanes).handles other worker isWorker
    exact ⟨next, isNext, waned.language.trans isLanguage⟩
  apart := tidy.apart

/-- A start that is not over gets further, with the worker that it had or one that no other
start has. -/
theorem Tidy.setProgress (tidy : registry.Tidy) {start : Start} {progress : Progress}
    (found : registry.starts[number]? = some start)
    (goesOn : ∀ outcome, start.progress ≠ .settled outcome)
    (own : ∀ handle, progress.handle? = some handle →
      (∃ worker : Handle, registry.handles[handle]? = some worker ∧
        worker.language = start.language) ∧
      ∀ (other : Nat) (begun : Start), registry.starts[other]? = some begun →
        begun.progress.handle? = some handle → other = number) :
    (registry.setProgress number progress).Tidy := by
  -- A start afterwards is the one that got further, or was there before.
  have cases (other : Nat) (next : Start)
      (isNext : (registry.setProgress number progress).starts[other]? = some next) :
      (other = number ∧ next = { start with progress }) ∨
        (other ≠ number ∧ registry.starts[other]? = some next) := by
    simp only [Registry.setProgress, List.getElem?_modify] at isNext
    by_cases same : number = other
    · subst same
      rw [found] at isNext
      simp only [if_true, Option.map_eq_map, Option.map_some] at isNext
      exact .inl ⟨rfl, (Option.some.inj isNext).symm⟩
    · exact .inr ⟨fun equal => same equal.symm, by simpa [same] using isNext⟩
  have succeeds : registry.Succeeds (registry.setProgress number progress) :=
    succeeds_setProgress found goesOn
  constructor
  case starting =>
    intro language other kept
    obtain ⟨begun, isBegun, isLanguage⟩ := tidy.starting language other kept
    obtain ⟨next, isNext, advances⟩ := succeeds.starts other begun isBegun
    exact ⟨next, isNext, advances.language.trans isLanguage⟩
  case ready =>
    intro language handle kept
    obtain ⟨other, begun, isBegun, isLanguage, settled⟩ := tidy.ready language handle kept
    obtain ⟨next, isNext, advances⟩ := succeeds.starts other begun isBegun
    exact ⟨other, next, isNext, advances.language.trans isLanguage, advances.settled _ settled⟩
  case worker =>
    intro other next handle isNext hasHandle
    rcases cases other next isNext with ⟨rfl, rfl⟩ | ⟨-, wasThere⟩
    · exact (own handle hasHandle).1
    · exact tidy.worker other next handle wasThere hasHandle
  case apart =>
    intro first second start other handle isFirst isSecond hasFirst hasSecond
    rcases cases first start isFirst with ⟨rfl, rfl⟩ | ⟨-, firstThere⟩
    · rcases cases second other isSecond with ⟨rfl, rfl⟩ | ⟨-, secondThere⟩
      · rfl
      · exact ((own handle hasFirst).2 second other secondThere hasSecond).symm
    · rcases cases second other isSecond with ⟨rfl, rfl⟩ | ⟨-, secondThere⟩
      · exact (own handle hasSecond).2 first start firstThere hasFirst
      · exact tidy.apart first second start other handle firstThere secondThere hasFirst hasSecond

/-- A start fails. -/
theorem Tidy.failStart (tidy : registry.Tidy) {start : Start}
    (found : registry.starts[number]? = some start)
    (goesOn : ∀ outcome, start.progress ≠ .settled outcome) (handle : Nat) (cause : WorkerError) :
    (registry.failStart number handle cause).Tidy := by
  have dropped : (registry.modifyHandle handle Handle.drop).Tidy :=
    tidy.modifyHandle fun worker _ => worker.wanes_drop
  exact dropped.setProgress found goesOn fun handle hasHandle => by contradiction

theorem Tidy.expire (tidy : registry.Tidy) (number : Nat) : (registry.expire number).Tidy := by
  simp only [Registry.expire]
  split
  · exact tidy
  · rename_i start found
    split
    · rename_i handle progress
      exact tidy.failStart found (by simp [progress]) handle _
    · exact tidy
    · exact tidy

/-- A start has a worker of its own from the first time somebody looks. -/
theorem Tidy.turnStart (tidy : registry.Tidy) (turned : registry.turnStart number = some after) :
    after.Tidy := by
  simp only [Registry.turnStart] at turned
  obtain ⟨start, found, turned⟩ := Option.bind_eq_some_iff.mp turned
  split at turned
  · rename_i progress
    cases turned
    have added : Tidy { registry with handles := registry.handles ++
        [{ language := start.language, launcher := start.launcher }] } := by
      refine ⟨tidy.starting, tidy.ready, fun other begun handle isBegun hasHandle => ?_, tidy.apart⟩
      obtain ⟨worker, isWorker, isLanguage⟩ := tidy.worker other begun handle isBegun hasHandle
      have inside := (List.getElem?_eq_some_iff.mp isWorker).1
      exact ⟨worker, by rw [List.getElem?_append_left inside, isWorker], isLanguage⟩
    refine added.setProgress found (by simp [progress]) fun handle hasHandle => ?_
    obtain rfl : registry.handles.length = handle := Option.some.inj hasHandle
    refine ⟨⟨_, List.getElem?_concat_length, rfl⟩, fun other begun isBegun hasHandle => ?_⟩
    obtain ⟨worker, isWorker, -⟩ := tidy.worker other begun _ isBegun hasHandle
    simp at isWorker
  · rename_i handle progress
    obtain ⟨⟨worker, readiness⟩, ready, turned⟩ := Option.bind_eq_some_iff.mp turned
    obtain ⟨waited, isWaited, ready⟩ := Option.bind_eq_some_iff.mp ready
    have wanes : ∀ other, registry.handles[handle]? = some other → other.Wanes worker :=
      forall_of_getElem? isWaited (Handle.wanes_turnReadiness ready)
    have moved : (registry.modifyHandle handle fun _ => worker).Tidy := tidy.modifyHandle wanes
    have sameStart : (registry.modifyHandle handle fun _ => worker).starts[number]? = some start :=
      found
    have goesOn : ∀ outcome, start.progress ≠ .settled outcome := by simp [progress]
    cases readiness with
    | ready =>
        cases turned
        refine moved.setProgress sameStart goesOn fun same hasHandle => ?_
        obtain rfl : handle = same := Option.some.inj hasHandle
        have isOwn : start.progress.handle? = some handle := by rw [progress]; rfl
        exact ⟨moved.worker number start handle sameStart isOwn, fun other begun isBegun isSame =>
          moved.apart other number begun start handle isBegun sameStart isSame isOwn⟩
    | ignored =>
        cases turned
        exact moved
    | failed cause =>
        cases turned
        exact moved.failStart sameStart goesOn handle cause
  · contradiction

/-- What is kept of the outcome of a start is of the language of the start. -/
theorem Tidy.collect (tidy : registry.Tidy) {outcome : Except WorkerError Nat}
    (settled : registry.outcome? number = some outcome) (language : String) :
    (registry.collect language number outcome).Tidy := by
  obtain ⟨start, found, progress⟩ := outcome?_eq_some.mp settled
  constructor
  case starting =>
    intro other begun kept
    rw [slot?_collect] at kept
    rw [starts_collect]
    split at kept
    · cases outcome <;> cases kept
    · exact tidy.starting other begun kept
  case ready =>
    intro other handle kept
    rw [slot?_collect] at kept
    rw [starts_collect]
    split at kept
    · rename_i waits
      obtain ⟨rfl, waits⟩ := waits
      obtain ⟨same, isSame, isLanguage⟩ := tidy.starting other number waits
      rw [found] at isSame
      cases isSame
      cases outcome with
      | ok worker =>
          cases kept
          exact ⟨number, start, found, isLanguage, progress⟩
      | error cause => cases kept
    · exact tidy.ready other handle kept
  case worker =>
    rw [starts_collect, handles_collect]
    exact tidy.worker
  case apart =>
    rw [starts_collect]
    exact tidy.apart

theorem Tidy.stop (tidy : registry.Tidy) (slot : Slot) : (registry.stop slot).Tidy := by
  cases slot with
  | ready handle => exact tidy.modifyHandle fun worker _ => worker.wanes_terminate
  | starting number => exact tidy
  | failed cause => exact tidy

theorem Tidy.shutdown (tidy : registry.Tidy) (language : String) :
    (registry.shutdown language).1.Tidy := by
  simp only [Registry.shutdown]
  split
  · exact tidy
  · have forgotten : (registry.forget language).Tidy :=
      tidy.of_slots (fun other slot kept => by
        rw [slot?_forget] at kept
        split at kept
        · contradiction
        · exact kept) rfl rfl
    exact forgotten.stop _

theorem Tidy.shutdownAll (tidy : registry.Tidy) : registry.shutdownAll.Tidy :=
  registry.shutdownAll_induction (tidy.of_slots (fun _ _ kept => by simp [slot?] at kept) rfl rfl)
    fun _ slot tidy => tidy.stop slot

end Tidy

theorem slot?_expire (registry : Registry) (number : Nat) (language : String) :
    (registry.expire number).slot? language = registry.slot? language := by
  simp only [expire]
  split
  · rfl
  · split <;> rfl

theorem slot?_turnStart (turned : registry.turnStart number = some after) (language : String) :
    after.slot? language = registry.slot? language := by
  rw [slot?, slots_turnStart turned, slot?]

/-! ## Asking for a worker -/

/-- What is in a list with a new element was there before or is new. -/
theorem getElem?_concat {α : Type} {list : List α} {element new : α} {index : Nat}
    (found : (list ++ [new])[index]? = some element) :
    list[index]? = some element ∨ element = new := by
  rw [List.getElem?_append] at found
  split at found
  · exact .inl found
  · rw [List.getElem?_singleton] at found
    split at found
    · exact .inr (Option.some.inj found).symm
    · contradiction

/-- What is not the new element of a list was there before. -/
theorem getElem?_concat_iff {α : Type} {list : List α} {element new : α} {index : Nat}
    (isOther : element ≠ new) :
    (list ++ [new])[index]? = some element ↔ list[index]? = some element := by
  constructor
  · intro found
    exact (getElem?_concat found).resolve_right isOther
  · intro found
    rw [List.getElem?_append_left (List.getElem?_eq_some_iff.mp found).1, found]

section Acquire

variable {launcher : Nat} {timeout : Duration}

theorem acquire_of_vacant (isVacant : registry.IsVacant language) (launcher : Nat)
    (timeout : Duration) :
    registry.acquire language launcher timeout =
      ({ registry.setSlot language (.starting registry.starts.length) with
          starts := registry.starts ++ [{ language, launcher, timeout }] },
        .joined registry.starts.length) := by
  simp only [IsVacant] at isVacant
  simp only [acquire]
  split at isVacant
  · rename_i nothing
    rw [nothing]
  · rename_i failed
    rw [failed]
  · rename_i handle ready
    simp only [ready, isVacant, Bool.false_eq_true, if_false]
  · contradiction

theorem acquire_of_starting (pending : registry.slot? language = some (.starting number))
    (launcher : Nat) (timeout : Duration) :
    registry.acquire language launcher timeout = (registry, .joined number) := by
  simp only [acquire, pending]

theorem acquire_of_ready (ready : registry.slot? language = some (.ready handle))
    (isAlive : registry.isAlive handle = true) (launcher : Nat) (timeout : Duration) :
    registry.acquire language launcher timeout = (registry, .held handle) := by
  simp only [acquire, ready, isAlive, if_true]

/-- There are three ways to be served. -/
theorem vacant_or_kept (registry : Registry) (language : String) :
    registry.IsVacant language ∨
      (∃ number, registry.slot? language = some (.starting number)) ∨
      ∃ handle, registry.slot? language = some (.ready handle) ∧
        registry.isAlive handle = true := by
  simp only [IsVacant]
  cases kept : registry.slot? language with
  | none => exact .inl trivial
  | some slot =>
      cases slot with
      | starting number => exact .inr (.inl ⟨number, rfl⟩)
      | failed cause => exact .inl trivial
      | ready handle =>
          cases isAlive : registry.isAlive handle with
          | true => exact .inr (.inr ⟨handle, rfl, isAlive⟩)
          | false => exact .inl isAlive

theorem Tidy.acquire (tidy : registry.Tidy) (language : String) (launcher : Nat)
    (timeout : Duration) : (registry.acquire language launcher timeout).1.Tidy := by
  rcases registry.vacant_or_kept language with isVacant | ⟨number, pending⟩ |
    ⟨handle, ready, isAlive⟩
  · have succeeds := registry.succeeds_acquire language launcher timeout
    rw [acquire_of_vacant isVacant] at succeeds ⊢
    have slots (other : String) :
        slot? { registry.setSlot language (.starting registry.starts.length) with
            starts := registry.starts ++ [{ language, launcher, timeout }] } other =
          if other = language then some (.starting registry.starts.length)
          else registry.slot? other := slot?_setSlot ..
    -- A new start has no worker yet.
    have wasThere (other : Nat) (start : Start) (handle : Nat)
        (found : (registry.starts ++ [({ language, launcher, timeout } : Start)])[other]? =
          some start) (hasHandle : start.progress.handle? = some handle) :
        registry.starts[other]? = some start := by
      refine (getElem?_concat_iff ?_).mp found
      rintro rfl
      contradiction
    constructor
    case starting =>
      intro other number kept
      rw [slots] at kept
      split at kept
      · rename_i same
        cases kept
        exact ⟨_, List.getElem?_concat_length, same.symm⟩
      · obtain ⟨start, found, isLanguage⟩ := tidy.starting other number kept
        obtain ⟨next, isNext, advances⟩ := succeeds.starts number start found
        exact ⟨next, isNext, advances.language.trans isLanguage⟩
    case ready =>
      intro other handle kept
      rw [slots] at kept
      split at kept
      · cases kept
      · obtain ⟨number, start, found, isLanguage, settled⟩ := tidy.ready other handle kept
        obtain ⟨next, isNext, advances⟩ := succeeds.starts number start found
        exact ⟨number, next, isNext, advances.language.trans isLanguage,
          advances.settled _ settled⟩
    case worker =>
      intro number start handle found hasHandle
      exact tidy.worker number start handle (wasThere _ _ _ found hasHandle) hasHandle
    case apart =>
      intro first second start other handle isFirst isSecond hasFirst hasSecond
      exact tidy.apart first second start other handle (wasThere _ _ _ isFirst hasFirst)
        (wasThere _ _ _ isSecond hasSecond) hasFirst hasSecond
  · rw [acquire_of_starting pending]
    exact tidy
  · rw [acquire_of_ready ready isAlive]
    exact tidy

end Acquire

/-! ## Other languages -/

/-- Two registries that do not differ in what has to do with a language. -/
structure AgreesOn (language : String) (before after : Registry) : Prop where
  slot : after.slot? language = before.slot? language
  starts : ∀ (number : Nat) (start : Start), start.language = language →
    (after.starts[number]? = some start ↔ before.starts[number]? = some start)
  handles : ∀ (number : Nat) (handle : Handle), handle.language = language →
    (after.handles[number]? = some handle ↔ before.handles[number]? = some handle)

section Agrees

variable {other : String}

theorem AgreesOn.refl (language : String) (registry : Registry) :
    AgreesOn language registry registry :=
  ⟨rfl, fun _ _ _ => .rfl, fun _ _ _ => .rfl⟩

theorem AgreesOn.trans (first : AgreesOn language before middle)
    (second : AgreesOn language middle after) : AgreesOn language before after where
  slot := second.slot.trans first.slot
  starts number start isOwn :=
    (second.starts number start isOwn).trans (first.starts number start isOwn)
  handles number handle isOwn :=
    (second.handles number handle isOwn).trans (first.handles number handle isOwn)

/-- What can be seen of a language depends on nothing else. -/
theorem AgreesOn.status (agrees : AgreesOn language before after) (tidy : before.Tidy) :
    after.status language = before.status language := by
  simp only [Registry.status, agrees.slot]
  split
  · rfl
  · rfl
  · rename_i handle ready
    obtain ⟨number, start, found, isLanguage, settled⟩ := tidy.ready language handle ready
    obtain ⟨worker, isWorker, sameLanguage⟩ := tidy.worker number start handle found (by
      rw [settled]
      rfl)
    have isAfter := (agrees.handles handle worker (sameLanguage.trans isLanguage)).mpr isWorker
    rw [Registry.isAlive, Registry.isAlive, isAfter, isWorker]
  · rfl

theorem agreesOn_modifyHandle {change : Handle → Handle}
    (isOther : ∀ found, registry.handles[handle]? = some found →
      found.language ≠ language ∧ (change found).language ≠ language) :
    AgreesOn language registry (registry.modifyHandle handle change) where
  slot := rfl
  starts _ _ _ := .rfl
  handles number found isOwn := by
    rw [handles_modifyHandle]
    split
    · rename_i same
      subst same
      cases isFound : registry.handles[number]? with
      | none => simp
      | some worker =>
          obtain ⟨notBefore, notAfter⟩ := isOther worker isFound
          constructor
          · intro same
            cases same
            exact absurd isOwn notAfter
          · intro same
            cases same
            exact absurd isOwn notBefore
    · exact .rfl

theorem agreesOn_setProgress {start : Start} (found : registry.starts[number]? = some start)
    (isOther : start.language ≠ language) (progress : Progress) :
    AgreesOn language registry (registry.setProgress number progress) where
  slot := rfl
  starts other begun isOwn := by
    simp only [setProgress, List.getElem?_modify]
    by_cases same : number = other
    · subst same
      rw [found]
      constructor
      · intro isNext
        obtain rfl : { start with progress } = begun := by simpa using isNext
        exact absurd isOwn isOther
      · intro isSame
        cases isSame
        exact absurd isOwn isOther
    · simp [same]
  handles _ _ _ := .rfl

theorem agreesOn_failStart {start : Start} (found : registry.starts[number]? = some start)
    (isOther : start.language ≠ language)
    (isHandle : ∀ worker : Handle, registry.handles[handle]? = some worker →
      worker.language = start.language) (cause : WorkerError) :
    AgreesOn language registry (registry.failStart number handle cause) := by
  have dropped : AgreesOn language registry (registry.modifyHandle handle Handle.drop) :=
    agreesOn_modifyHandle fun worker isWorker => by
      rw [worker.wanes_drop.language, isHandle worker isWorker]
      exact ⟨isOther, isOther⟩
  have sameStart : (registry.modifyHandle handle Handle.drop).starts[number]? = some start := found
  exact dropped.trans (agreesOn_setProgress sameStart isOther _)

/-- The worker that a start waits for is of the language of the start. -/
theorem Tidy.language_of_handle? (tidy : registry.Tidy) {start : Start} {worker : Handle}
    (found : registry.starts[number]? = some start)
    (hasHandle : start.progress.handle? = some handle)
    (isWorker : registry.handles[handle]? = some worker) : worker.language = start.language := by
  obtain ⟨same, isSame, isLanguage⟩ := tidy.worker number start handle found hasHandle
  rw [isWorker] at isSame
  cases isSame
  exact isLanguage

theorem agreesOn_expire (tidy : registry.Tidy)
    (isOther : ∀ start : Start, registry.starts[number]? = some start →
      start.language ≠ language) : AgreesOn language registry (registry.expire number) := by
  simp only [expire]
  split
  · exact .refl language registry
  · rename_i start found
    split
    · rename_i handle progress
      exact agreesOn_failStart found (isOther start found) (fun worker isWorker =>
        tidy.language_of_handle? found (by rw [progress]; rfl) isWorker) _
    · exact .refl language registry
    · exact .refl language registry

theorem agreesOn_turnStart (tidy : registry.Tidy)
    (isOther : ∀ start : Start, registry.starts[number]? = some start →
      start.language ≠ language) (turned : registry.turnStart number = some after) :
    AgreesOn language registry after := by
  simp only [turnStart] at turned
  obtain ⟨start, found, turned⟩ := Option.bind_eq_some_iff.mp turned
  have notOwn := isOther start found
  split at turned
  · cases turned
    let worker : Handle := { language := start.language, launcher := start.launcher }
    have added : AgreesOn language registry
        { registry with handles := registry.handles ++ [worker] } := by
      refine ⟨rfl, fun _ _ _ => .rfl, fun number other isOwn => getElem?_concat_iff ?_⟩
      rintro rfl
      exact notOwn isOwn
    have sameStart : { registry with handles := registry.handles ++ [worker] }.starts[number]? =
        some start := found
    exact added.trans (agreesOn_setProgress sameStart notOwn _)
  · rename_i handle progress
    obtain ⟨⟨worker, readiness⟩, ready, turned⟩ := Option.bind_eq_some_iff.mp turned
    obtain ⟨waited, isWaited, ready⟩ := Option.bind_eq_some_iff.mp ready
    have isLanguage := tidy.language_of_handle? found (by rw [progress]; rfl) isWaited
    have sameLanguage : worker.language = start.language :=
      (Handle.wanes_turnReadiness ready).language.trans isLanguage
    have moved : AgreesOn language registry (registry.modifyHandle handle fun _ => worker) :=
      agreesOn_modifyHandle fun same isSame => by
        rw [isWaited] at isSame
        cases isSame
        rw [isLanguage, sameLanguage]
        exact ⟨notOwn, notOwn⟩
    have sameStart : (registry.modifyHandle handle fun _ => worker).starts[number]? = some start :=
      found
    cases readiness with
    | ready =>
        cases turned
        exact moved.trans (agreesOn_setProgress sameStart notOwn _)
    | ignored =>
        cases turned
        exact moved
    | failed cause =>
        cases turned
        refine moved.trans (agreesOn_failStart sameStart notOwn (fun same isSame => ?_) cause)
        rw [handles_modifyHandle, if_pos rfl, isWaited] at isSame
        cases isSame
        exact sameLanguage
  · contradiction

theorem agreesOn_collect (isOther : language ≠ other) (outcome : Except WorkerError Nat) :
    AgreesOn language registry (registry.collect other number outcome) where
  slot := by
    rw [slot?_collect, if_neg fun both => isOther both.1]
  starts _ _ _ := by rw [starts_collect]
  handles _ _ _ := by rw [handles_collect]

theorem agreesOn_shutdown (tidy : registry.Tidy) (isOther : language ≠ other) :
    AgreesOn language registry (registry.shutdown other).1 := by
  have slots := slot?_shutdown registry other language
  rw [if_neg isOther] at slots
  refine ⟨slots, fun _ _ _ => by rw [starts_shutdown], ?_⟩
  simp only [shutdown]
  split
  · exact fun _ _ _ => .rfl
  · rename_i slot kept
    cases slot with
    | ready handle =>
        obtain ⟨number, start, found, isLanguage, settled⟩ := tidy.ready other handle kept
        have stopped : AgreesOn language registry (registry.modifyHandle handle Handle.terminate) :=
          agreesOn_modifyHandle fun worker isWorker => by
            have sameLanguage := tidy.language_of_handle? found (by rw [settled]; rfl) isWorker
            rw [worker.wanes_terminate.language, sameLanguage, isLanguage]
            exact ⟨isOther.symm, isOther.symm⟩
        exact stopped.handles
    | starting number => exact fun _ _ _ => .rfl
    | failed cause => exact fun _ _ _ => .rfl

theorem agreesOn_acquire (registry : Registry) (isOther : language ≠ other) (launcher : Nat)
    (timeout : Duration) :
    AgreesOn language registry (registry.acquire other launcher timeout).1 := by
  rcases registry.vacant_or_kept other with isVacant | ⟨number, pending⟩ |
    ⟨handle, ready, isAlive⟩
  · rw [acquire_of_vacant isVacant]
    have slots := slot?_setSlot registry other language (.starting registry.starts.length)
    rw [if_neg isOther] at slots
    refine ⟨slots, fun number start isOwn => getElem?_concat_iff ?_, fun _ _ _ => .rfl⟩
    rintro rfl
    exact isOther isOwn.symm
  · rw [acquire_of_starting pending]
    exact .refl language registry
  · rw [acquire_of_ready ready isAlive]
    exact .refl language registry

end Agrees

end Registry

end Polyglot.Worker
