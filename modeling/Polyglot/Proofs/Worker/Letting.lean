import Polyglot.Proofs.Worker.Hearing
import Polyglot.Proofs.Worker.Upkeep

/-!
# Registries while no run takes a turn

Only a worker that was handed out runs code.  Unless one of its runs takes a turn, whatever is
done with a registry lets the runs on its workers be.
-/

namespace Polyglot.Worker

namespace Registry

/-- A worker came of a start that is over. -/
def Lent (registry : Registry) (number : Nat) : Prop :=
  ∃ start, registry.outcome? start = some (.ok number)

/-- A registry whose workers run code only after they were handed out. -/
structure Proper (registry : Registry) : Prop where
  tidy : registry.Tidy
  lent : ∀ (number : Nat) (handle : Handle), registry.handles[number]? = some handle →
    handle.runs ≠ [] → registry.Lent number

/-- What is done with a registry while no run on its workers takes a turn. -/
structure Lets (before after : Registry) : Prop where
  tidy : before.Tidy → after.Tidy
  succeeds : before.Succeeds after
  kept : ∀ (number : Nat) (handle : Handle), before.handles[number]? = some handle →
    ∃ next : Handle, after.handles[number]? = some next ∧ handle.Lets next
  /-- A worker that was not there before has hardly been touched. -/
  made : ∀ (number : Nat) (handle : Handle), before.handles[number]? = none →
    after.handles[number]? = some handle →
    ∃ language launcher, Handle.Lets { language, launcher } handle

/-- No run on a worker is forgotten, and one that is over stays what it is. -/
def Keeps (before after : Registry) : Prop :=
  ∀ (number : Nat) (worker : Handle), before.handles[number]? = some worker →
    ∃ next : Handle, after.handles[number]? = some next ∧ worker.Keeps next

/-- One run on a worker takes a turn, and nothing is done with the other workers. -/
structure Works (before : Registry) (handle : Nat) (worker : Handle) (run : Nat) (next : Handle)
    (after : Registry) : Prop where
  tidy : before.Tidy → after.Tidy
  succeeds : before.Succeeds after
  found : before.handles[handle]? = some worker
  moved : after.handles[handle]? = some next
  others : ∀ other, other ≠ handle → after.handles[other]? = before.handles[other]?
  lent : after.Lent handle
  deed : worker.Deed run next

variable {registry before middle after : Registry} {number handle run : Nat}
  {worker next : Handle}

theorem Lent.mono (lent : before.Lent number) (succeeds : before.Succeeds after) :
    after.Lent number := by
  obtain ⟨start, settled⟩ := lent
  exact ⟨start, succeeds.outcome? settled⟩

theorem proper_empty : Proper {} := ⟨tidy_empty, fun _ _ found => by contradiction⟩

/-- A worker that is waited for has not run anything. -/
theorem Proper.unused (proper : registry.Proper) {start : Start} {worker : Handle}
    (found : registry.starts[number]? = some start) (waits : start.progress = .waiting handle)
    (isWorker : registry.handles[handle]? = some worker) : worker.runs = [] := by
  apply Decidable.byContradiction
  intro used
  obtain ⟨other, settled⟩ := proper.lent handle worker isWorker used
  obtain ⟨ended, isOver, progress⟩ := outcome?_eq_some.mp settled
  have same : other = number := by
    apply proper.tidy.apart other number ended start handle isOver found
    · rw [progress]
      rfl
    · rw [waits]
      rfl
  rw [same, found] at isOver
  cases isOver
  rw [waits] at progress
  contradiction

namespace Lets

theorem refl (registry : Registry) : registry.Lets registry where
  tidy := id
  succeeds := .refl registry
  kept _ handle found := ⟨handle, found, .refl handle⟩
  made _ _ missing found := by
    rw [missing] at found
    contradiction

theorem trans (first : before.Lets middle) (second : middle.Lets after) : before.Lets after where
  tidy tidy := second.tidy (first.tidy tidy)
  succeeds := first.succeeds.trans second.succeeds
  kept number handle found := by
    obtain ⟨between, foundBetween, once⟩ := first.kept number handle found
    obtain ⟨next, foundNext, again⟩ := second.kept number between foundBetween
    exact ⟨next, foundNext, once.trans again⟩
  made number handle missing found := by
    cases foundBetween : middle.handles[number]? with
    | none => exact second.made number handle foundBetween found
    | some between =>
        obtain ⟨language, launcher, once⟩ := first.made number between missing foundBetween
        obtain ⟨next, foundNext, again⟩ := second.kept number between foundBetween
        rw [found] at foundNext
        cases foundNext
        exact ⟨language, launcher, once.trans again⟩

theorem proper (lets : before.Lets after) (proper : before.Proper) : after.Proper where
  tidy := lets.tidy proper.tidy
  lent number handle found used := by
    cases foundBefore : before.handles[number]? with
    | none =>
        obtain ⟨language, launcher, fresh⟩ := lets.made number handle foundBefore found
        exact absurd (fresh.lingers.nil.mpr rfl) used
    | some was =>
        obtain ⟨next, foundNext, same⟩ := lets.kept number was foundBefore
        rw [found] at foundNext
        cases foundNext
        have usedBefore : was.runs ≠ [] := fun unused => used (same.lingers.nil.mpr unused)
        exact (proper.lent number was foundBefore usedBefore).mono lets.succeeds

theorem keeps (lets : before.Lets after) : before.Keeps after := by
  intro number worker found
  obtain ⟨next, foundNext, same⟩ := lets.kept number worker found
  exact ⟨next, foundNext, same.lingers.keeps⟩

/-- Nothing is done with the workers. -/
theorem of_handles (tidy : before.Tidy → after.Tidy) (succeeds : before.Succeeds after)
    (handles : after.handles = before.handles) : before.Lets after where
  tidy := tidy
  succeeds := succeeds
  kept := by
    rw [handles]
    exact (Lets.refl before).kept
  made := by
    rw [handles]
    exact (Lets.refl before).made

end Lets

/-! ## What is done with a registry -/

section Operations

variable {change : Handle → Handle}

theorem lets_modifyHandle
    (wanes : ∀ found, registry.handles[handle]? = some found → found.Wanes (change found))
    (lets : ∀ found, registry.handles[handle]? = some found → found.Lets (change found)) :
    registry.Lets (registry.modifyHandle handle change) where
  tidy tidy := tidy.modifyHandle wanes
  succeeds := succeeds_modifyHandle wanes
  kept number worker found := by
    rw [handles_modifyHandle, found]
    split
    · rename_i same
      subst same
      exact ⟨change worker, rfl, lets worker found⟩
    · exact ⟨worker, rfl, .refl worker⟩
  made number worker missing found := by
    rw [handles_modifyHandle, missing] at found
    split at found <;> contradiction

/-- Asking for a worker does nothing with those that are there. -/
theorem handles_acquire (registry : Registry) (language : String) (launcher : Nat)
    (timeout : Duration) :
    (registry.acquire language launcher timeout).1.handles = registry.handles := by
  rcases registry.vacant_or_kept language with isVacant | ⟨number, pending⟩ |
    ⟨handle, ready, isAlive⟩
  · rw [acquire_of_vacant isVacant]
    rfl
  · rw [acquire_of_starting pending]
  · rw [acquire_of_ready ready isAlive]

/-- A worker that is handed out at once was handed out before. -/
theorem Tidy.lent_of_held (tidy : registry.Tidy) {language : String} {launcher : Nat}
    {timeout : Duration}
    (acquired : registry.acquire language launcher timeout = (after, .held handle)) :
    after.Lent handle := by
  rcases registry.vacant_or_kept language with isVacant | ⟨number, pending⟩ |
    ⟨other, ready, isAlive⟩
  · rw [acquire_of_vacant isVacant] at acquired
    cases acquired
  · rw [acquire_of_starting pending] at acquired
    cases acquired
  · rw [acquire_of_ready ready isAlive] at acquired
    cases acquired
    obtain ⟨number, start, found, -, settled⟩ := tidy.ready language handle ready
    exact ⟨number, outcome?_eq_some.mpr ⟨start, found, settled⟩⟩

theorem lets_acquire (registry : Registry) (language : String) (launcher : Nat)
    (timeout : Duration) : registry.Lets (registry.acquire language launcher timeout).1 := by
  apply Lets.of_handles (fun tidy => tidy.acquire language launcher timeout)
  · exact registry.succeeds_acquire language launcher timeout
  · exact registry.handles_acquire language launcher timeout

theorem lets_collect {outcome : Except WorkerError Nat}
    (settled : registry.outcome? number = some outcome) (language : String) :
    registry.Lets (registry.collect language number outcome) :=
  .of_handles (fun tidy => tidy.collect settled language)
    (registry.succeeds_collect language number outcome) (registry.handles_collect ..)

/-- A start that is not over fails. -/
theorem lets_failStart {start : Start} {cause : WorkerError}
    (found : registry.starts[number]? = some start)
    (goesOn : ∀ outcome, start.progress ≠ .settled outcome) (handle : Nat) :
    registry.Lets (registry.failStart number handle cause) := by
  have dropped : registry.Lets (registry.modifyHandle handle Handle.drop) :=
    lets_modifyHandle (fun worker _ => worker.wanes_drop) fun worker _ => worker.lets_drop
  exact ⟨fun tidy => tidy.failStart found goesOn handle cause,
    succeeds_failStart found goesOn handle, dropped.kept, dropped.made⟩

theorem lets_expire (registry : Registry) (number : Nat) :
    registry.Lets (registry.expire number) := by
  simp only [expire]
  split
  · exact .refl registry
  · rename_i start found
    split
    · rename_i handle waits
      apply lets_failStart found
      intro outcome settled
      rw [waits] at settled
      contradiction
    · exact .refl registry
    · exact .refl registry

/-- A start goes on. -/
theorem lets_turnStart (proper : registry.Proper)
    (turned : registry.turnStart number = some after) : registry.Lets after := by
  have tidy : registry.Tidy → after.Tidy := fun tidy => tidy.turnStart turned
  have succeeds := succeeds_turnStart turned
  simp only [turnStart] at turned
  obtain ⟨start, found, turned⟩ := Option.bind_eq_some_iff.mp turned
  split at turned
  · cases turned
    refine ⟨tidy, succeeds, ?_, ?_⟩
    · intro number handle isHandle
      have inside := (List.getElem?_eq_some_iff.mp isHandle).1
      exact ⟨handle, (List.getElem?_append_left inside).trans isHandle, .refl handle⟩
    · intro number handle missing isHandle
      rcases getElem?_concat isHandle with wasThere | isNew
      · rw [missing] at wasThere
        contradiction
      · exact ⟨start.language, start.launcher, isNew ▸ .refl _⟩
  · rename_i handle waits
    obtain ⟨⟨worker, readiness⟩, ready, turned⟩ := Option.bind_eq_some_iff.mp turned
    obtain ⟨waited, isWaited, ready⟩ := Option.bind_eq_some_iff.mp ready
    have unused := proper.unused found waits isWaited
    have moved : registry.Lets (registry.modifyHandle handle fun _ => worker) := by
      apply lets_modifyHandle
      · exact forall_of_getElem? isWaited (Handle.wanes_turnReadiness ready)
      · exact forall_of_getElem? isWaited (Handle.lets_turnReadiness unused ready)
    cases readiness with
    | ready =>
        cases turned
        exact ⟨tidy, succeeds, moved.kept, moved.made⟩
    | ignored =>
        cases turned
        exact moved
    | failed cause =>
        cases turned
        have sameStart : (registry.modifyHandle handle fun _ => worker).starts[number]? =
            some start := found
        have goesOn : ∀ outcome, start.progress ≠ .settled outcome := by
          intro outcome settled
          rw [waits] at settled
          contradiction
        exact moved.trans (lets_failStart sameStart goesOn handle)
  · contradiction

theorem lets_stop (registry : Registry) (slot : Slot) : registry.Lets (registry.stop slot) := by
  cases slot with
  | ready handle =>
      exact lets_modifyHandle (fun worker _ => worker.wanes_terminate)
        fun worker _ => worker.lets_terminate
  | starting number => exact .refl registry
  | failed cause => exact .refl registry

theorem shutdown_of_kept {slot : Slot} {language : String}
    (kept : registry.slot? language = some slot) :
    (registry.shutdown language).1 = (registry.forget language).stop slot := by
  simp only [shutdown, kept]

theorem lets_shutdown (registry : Registry) (language : String) :
    registry.Lets (registry.shutdown language).1 := by
  have succeeds := registry.succeeds_shutdown language
  have tidy : registry.Tidy → (registry.shutdown language).1.Tidy :=
    fun tidy => tidy.shutdown language
  cases kept : registry.slot? language with
  | none =>
      simp only [shutdown, kept]
      exact .refl registry
  | some slot =>
      have stopped := (registry.forget language).lets_stop slot
      rw [shutdown_of_kept kept] at succeeds tidy ⊢
      exact ⟨tidy, succeeds, stopped.kept, stopped.made⟩

theorem lets_shutdownAll (registry : Registry) : registry.Lets registry.shutdownAll := by
  have all : Lets { registry with slots := [] } registry.shutdownAll :=
    registry.shutdownAll_induction (.refl _)
      fun middle slot lets => lets.trans (middle.lets_stop slot)
  exact ⟨Tidy.shutdownAll, registry.succeeds_shutdownAll, all.kept, all.made⟩

end Operations

/-! ## The turn of a run -/

section Works

theorem Works.keeps (works : before.Works handle worker run next after) : before.Keeps after := by
  intro number other isOther
  by_cases same : number = handle
  · subst same
    rw [works.found] at isOther
    cases isOther
    exact ⟨next, works.moved, works.deed.spares.keeps⟩
  · exact ⟨other, (works.others number same).trans isOther, Handle.keeps_congr rfl⟩

theorem Works.proper (works : before.Works handle worker run next after)
    (proper : before.Proper) : after.Proper where
  tidy := works.tidy proper.tidy
  lent number other isOther used := by
    by_cases same : number = handle
    · rw [same]
      exact works.lent
    · have wasThere := (works.others number same).symm.trans isOther
      exact (proper.lent number other wasThere used).mono works.succeeds

theorem works_modifyHandle (found : registry.handles[handle]? = some worker)
    (lent : registry.Lent handle) (wanes : worker.Wanes next) (deed : worker.Deed run next) :
    registry.Works handle worker run next (registry.modifyHandle handle fun _ => next) where
  tidy tidy := tidy.modifyHandle (forall_of_getElem? found wanes)
  succeeds := succeeds_modifyHandle (forall_of_getElem? found wanes)
  found := found
  moved := by rw [handles_modifyHandle, if_pos rfl, found, Option.map_some]
  others other different := by rw [handles_modifyHandle, if_neg different]
  lent := lent.mono (succeeds_modifyHandle (forall_of_getElem? found wanes))
  deed := deed

/-- A run that has to wait changes nothing. -/
theorem works_refl (found : registry.handles[handle]? = some worker)
    (lent : registry.Lent handle) (run : Nat) :
    registry.Works handle worker run worker registry where
  tidy := id
  succeeds := .refl registry
  found := found
  moved := found
  others _ _ := rfl
  lent := lent
  deed := .pause ⟨Handle.Alike.spares ⟨rfl, rfl, rfl, rfl, rfl⟩ run, .stay _, rfl, rfl⟩

/-- The registry was only looked at before a run took a turn. -/
theorem Works.of_lets (works : middle.Works handle worker run next after)
    (lets : before.Lets middle) (same : middle.handles = before.handles) :
    before.Works handle worker run next after where
  tidy tidy := works.tidy (lets.tidy tidy)
  succeeds := lets.succeeds.trans works.succeeds
  found := same ▸ works.found
  moved := works.moved
  others other different := (works.others other different).trans (by rw [same])
  lent := works.lent
  deed := works.deed

end Works

end Registry

end Polyglot.Worker
