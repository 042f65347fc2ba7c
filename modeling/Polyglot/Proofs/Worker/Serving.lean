import Polyglot.Proofs.Input.Serving
import Polyglot.Proofs.Worker.Destruction
import Polyglot.Proofs.Worker.Letting
import Polyglot.Proofs.Worker.Bench

/-!
# The broker of a worker executor

Whoever calls a worker executor makes one call after the other, and the code of a call is
one run on a worker.  The broker of the executor serves that run.  Whatever else happens in
the registry does not get a run anywhere.
-/

namespace Polyglot.Worker

namespace Registry

/-- A run on a worker, by their numbers. -/
def run? (registry : Registry) (handle run : Nat) : Option Run := do
  let worker ← registry.handles[handle]?
  worker.runs[run]?

/-- Every run on a worker stands where it stood. -/
def KeepsRuns (before after : Registry) : Prop :=
  ∀ (handle run : Nat) (found : Run), before.run? handle run = some found →
    after.run? handle run = some found

variable {registry before middle after : Registry} {number handle : Nat}

theorem run?_eq_some {run : Nat} {found : Run} :
    registry.run? handle run = some found ↔
      ∃ worker, registry.handles[handle]? = some worker ∧ worker.runs[run]? = some found := by
  simp [run?, Option.bind_eq_some_iff]

theorem run?_modifyHandle {worker : Handle} (found : registry.handles[handle]? = some worker)
    (change : Handle → Handle) (run : Nat) :
    (registry.modifyHandle handle change).run? handle run = (change worker).runs[run]? := by
  simp [run?, modifyHandle, found]

theorem KeepsRuns.trans (first : before.KeepsRuns middle) (second : middle.KeepsRuns after) :
    before.KeepsRuns after :=
  fun handle run found isFound => second handle run found (first handle run found isFound)

/-- Nothing is done with the workers. -/
theorem keepsRuns_of_handles (handles : after.handles = before.handles) :
    before.KeepsRuns after := by
  intro handle run found isFound
  rwa [run?, handles]

theorem keepsRuns_modifyHandle {change : Handle → Handle}
    (runs : ∀ worker, registry.handles[handle]? = some worker →
      (change worker).runs = worker.runs) :
    registry.KeepsRuns (registry.modifyHandle handle change) := by
  intro other run found isFound
  obtain ⟨worker, isWorker, isRun⟩ := run?_eq_some.mp isFound
  refine run?_eq_some.mpr ?_
  rw [handles_modifyHandle, isWorker]
  split
  · rename_i same
    subst same
    exact ⟨change worker, rfl, by rw [runs worker isWorker, isRun]⟩
  · exact ⟨worker, rfl, isRun⟩

theorem keepsRuns_failStart (registry : Registry) (number handle : Nat) (cause : WorkerError) :
    registry.KeepsRuns (registry.failStart number handle cause) :=
  (keepsRuns_modifyHandle fun worker _ => worker.stirs_drop.runs).trans (keepsRuns_of_handles rfl)

theorem keepsRuns_expire (registry : Registry) (number : Nat) :
    registry.KeepsRuns (registry.expire number) := by
  simp only [expire]
  split
  · exact keepsRuns_of_handles rfl
  · split
    · exact keepsRuns_failStart _ _ _ _
    all_goals exact keepsRuns_of_handles rfl

theorem keepsRuns_stop (registry : Registry) (slot : Slot) :
    registry.KeepsRuns (registry.stop slot) := by
  cases slot with
  | ready handle => exact keepsRuns_modifyHandle fun worker _ => worker.stirs_terminate.runs
  | starting number => exact keepsRuns_of_handles rfl
  | failed cause => exact keepsRuns_of_handles rfl

theorem keepsRuns_shutdown (registry : Registry) (language : String) :
    registry.KeepsRuns (registry.shutdown language).1 := by
  cases kept : registry.slot? language with
  | none =>
      simp only [shutdown, kept]
      exact keepsRuns_of_handles rfl
  | some slot =>
      rw [shutdown_of_kept kept]
      have forgotten : registry.KeepsRuns (registry.forget language) := keepsRuns_of_handles rfl
      exact forgotten.trans (keepsRuns_stop _ slot)

theorem keepsRuns_shutdownAll (registry : Registry) :
    registry.KeepsRuns registry.shutdownAll :=
  registry.shutdownAll_induction (motive := registry.KeepsRuns) (keepsRuns_of_handles rfl)
    fun middle slot keeps => keeps.trans (middle.keepsRuns_stop slot)

end Registry

theorem Executor.phase?_setPhase {executor : Executor} {number : Nat} {phase : CallPhase}
    (called : executor.phase? number = some phase) (next : CallPhase) :
    (executor.setPhase number next).phase? number = some next := by
  obtain ⟨call, found, -⟩ := Option.map_eq_some_iff.mp called
  simp [Executor.phase?, setPhase, found]

namespace Place

/-- The run of the code of a call. -/
def run? (place : Place) (number : Nat) : Option Run :=
  match place.executor.phase? number with
  | some (.running handle run) => place.registry.run? handle run
  | _ => none

/-- The tickets that the run of a call holds. -/
def heldTickets (place : Place) (number : Nat) : List Nat :=
  (place.run? number).elim [] (·.phase.holding.tickets)

/-- The broker of an executor serves a call and nobody else. -/
structure Serves (place : Place) (number : Nat) : Prop where
  /-- The code asks the broker of the executor. -/
  running : ∀ handle run, place.executor.phase? number = some (.running handle run) →
    ∃ found, place.registry.run? handle run = some found ∧
      found.broker = place.executor.broker
  serves : place.desk.Serves place.executor.broker place.executor.destroyed
    (place.heldTickets number)

/-- An executor has the broker that it had, and nobody adds a broker or takes one away. -/
structure KeepsBroker (before after : Place) : Prop where
  broker : after.executor.broker = before.executor.broker
  hooks : ∀ number, after.desk.hookOf? number = before.desk.hookOf? number

variable {place after : Place} {number handle run start : Nat} {purpose : Purpose}
  {phase : CallPhase} {receiver : String → Option Nat}

/-! ## Where a call holds nothing -/

theorem run?_of_phase? (place : Place)
    (called : place.executor.phase? number = some (.running handle run)) :
    place.run? number = place.registry.run? handle run := by
  simp only [run?, called]

/-- A call whose code does not run holds nothing. -/
theorem heldTickets_of_phase? (place : Place)
    (idle : ∀ handle run, place.executor.phase? number ≠ some (.running handle run)) :
    place.heldTickets number = [] := by
  have nothing : place.run? number = none := by simp only [run?]
  simp only [heldTickets, nothing, Option.elim_none]

theorem Serves.of_idle (serves : place.desk.Serves place.executor.broker
      place.executor.destroyed [])
    (idle : ∀ handle run, place.executor.phase? number ≠ some (.running handle run)) :
    place.Serves number where
  running handle run called := absurd called (idle handle run)
  serves := by
    rw [heldTickets_of_phase? place idle]
    exact serves

theorem Serves.unheld (serves : place.Serves number) (nothing : place.heldTickets number = []) :
    place.desk.Serves place.executor.broker place.executor.destroyed [] := by
  rw [← nothing]
  exact serves.serves

/-- A call comes to stand somewhere where its code does not run. -/
theorem serves_setPhase (place : Place) (called : place.executor.phase? number = some phase)
    (serves : place.desk.Serves place.executor.broker place.executor.destroyed [])
    (next : CallPhase) (idle : ∀ handle run, next ≠ .running handle run) :
    (place.setPhase number next).Serves number := by
  refine Serves.of_idle serves fun handle run isRunning => ?_
  have moved := Executor.phase?_setPhase called next
  change (place.executor.setPhase number next).phase? number = _ at isRunning
  rw [moved] at isRunning
  exact idle handle run (Option.some.inj isRunning)

/-! ## Turns -/

/-- A call that holds nothing has its worker. -/
theorem serves_proceed (place : Place) (called : place.executor.phase? number = some phase)
    (serves : place.desk.Serves place.executor.broker place.executor.destroyed [])
    (handle : Nat) (purpose : Purpose) : (place.proceed number handle purpose).Serves number := by
  cases purpose with
  | start => exact serves_setPhase place called serves _ (by simp)
  | execute code =>
      simp only [proceed]
      split
      · exact serves_setPhase place called serves _ (by simp)
      · rename_i worker found
        obtain ⟨next, values, dealt⟩ := Handle.dealt_run (fun _ => none)
          place.executor.destroyed worker place.desk place.executor.broker code
        have own :
            (worker.run place.desk place.executor.broker code).2.1.runs[worker.runs.length]? =
              some { code, broker := place.executor.broker, phase := next } := by
          rw [dealt.runs, Handle.getElem?_setPhase, if_pos rfl, Handle.getElem?_ask,
            Option.map_some]
        have moved := Executor.phase?_setPhase called (.running handle worker.runs.length)
        have isRun := (Registry.run?_modifyHandle found
          (fun _ => (worker.run place.desk place.executor.broker code).2.1)
          worker.runs.length).trans own
        refine ⟨fun other run isRunning => ?_, ?_⟩
        · cases moved.symm.trans isRunning
          exact ⟨_, isRun, rfl⟩
        · rw [heldTickets, run?_of_phase? _ moved]
          exact isRun ▸ Desk.Serves.deals serves dealt.deals

/-- A call that waits for a start goes on. -/
theorem serves_turnAcquiring (place : Place) (called : place.executor.phase? number = some phase)
    (waits : ∀ handle run, phase ≠ .running handle run)
    (serves : place.desk.Serves place.executor.broker place.executor.destroyed [])
    (turned : place.turnAcquiring number start purpose = some after) : after.Serves number := by
  simp only [turnAcquiring] at turned
  split at turned
  · obtain ⟨registry, -, turned⟩ := Option.bind_eq_some_iff.mp turned
    cases turned
    refine Serves.of_idle serves fun handle run isRunning => ?_
    rw [called] at isRunning
    exact waits handle run (Option.some.inj isRunning)
  · rename_i outcome settled
    cases outcome with
    | ok handle =>
        cases turned
        exact serves_proceed { place with
          registry := place.registry.collect place.executor.language start (.ok handle) }
          called serves handle purpose
    | error cause =>
        cases turned
        exact serves_setPhase { place with
          registry := place.registry.collect place.executor.language start (.error cause) }
          called serves _ (by simp)

/-- A call whose code runs goes on. -/
theorem Serves.turnRunning (serves : place.Serves number)
    (called : place.executor.phase? number = some (.running handle run))
    (turned : place.turnRunning receiver number handle run = some after) :
    after.Serves number := by
  obtain ⟨found, isRun, own⟩ := serves.running handle run called
  obtain ⟨worker, isWorker, isFound⟩ := Registry.run?_eq_some.mp isRun
  have held : place.heldTickets number = found.phase.holding.tickets := by
    rw [heldTickets, run?_of_phase? place called, isRun]
    rfl
  have served := serves.serves
  rw [held] at served
  simp only [Place.turnRunning] at turned
  obtain ⟨same, isSame, turned⟩ := Option.bind_eq_some_iff.mp turned
  obtain rfl := Option.some.inj (isWorker.symm.trans isSame)
  split at turned
  · rename_i result ended
    cases turned
    have nothing : found.phase.holding.tickets = [] := by
      simp only [Handle.result?, Handle.phase?, isFound, Option.map_some] at ended
      split at ended
      · rename_i isFinished
        rw [Option.some.inj isFinished]
        rfl
      · contradiction
    rw [nothing] at served
    exact serves_setPhase place called served _ (by simp)
  · obtain ⟨⟨desk, next⟩, moved, turned⟩ := Option.bind_eq_some_iff.mp turned
    cases turned
    obtain ⟨ran, isRan, -, stands, values, dealt⟩ := Handle.dealt_turn receiver
      (fun _ => place.executor.destroyed) (fun _ _ => id) moved
    obtain rfl := Option.some.inj (isFound.symm.trans isRan)
    have deals := dealt.deals
    rw [own] at deals
    have now : (place.registry.modifyHandle handle fun _ => next).run? handle run =
        some { found with phase := stands } := by
      rw [Registry.run?_modifyHandle isWorker, dealt.runs, Handle.getElem?_setPhase, if_pos rfl,
        isFound, Option.map_some]
    refine ⟨fun other index isRunning => ?_, ?_⟩
    · rw [called] at isRunning
      cases isRunning
      exact ⟨_, now, own⟩
    · have moved := run?_of_phase?
        ⟨desk, place.registry.modifyHandle handle fun _ => next, place.executor⟩ called
      rw [heldTickets, moved, now]
      exact served.deals deals

theorem Serves.turn (serves : place.Serves number)
    (turned : place.turn receiver number = some after) : after.Serves number := by
  simp only [Place.turn] at turned
  obtain ⟨call, found, turned⟩ := Option.bind_eq_some_iff.mp turned
  have called : place.executor.phase? number = some call.phase := by
    simp [Executor.phase?, found]
  split at turned
  · rename_i start acquiring
    rw [acquiring] at called
    have nothing : place.heldTickets number = [] :=
      heldTickets_of_phase? place fun handle run isRunning => by simp [called] at isRunning
    exact serves_turnAcquiring place called (by simp) (serves.unheld nothing) turned
  · rename_i handle run running
    rw [running] at called
    exact serves.turnRunning called turned
  all_goals contradiction

/-- The number of a new call is that of the calls before it. -/
theorem number_call (place : Place) (purpose : Purpose) :
    (place.call purpose).2 = place.executor.calls.length := by
  simp only [Place.call]
  split
  · rfl
  · split <;> rfl

/-- The executor is called again after a call that holds nothing any more. -/
theorem Serves.call (serves : place.Serves number) (nothing : place.heldTickets number = [])
    (purpose : Purpose) : (place.call purpose).1.Serves place.executor.calls.length := by
  have served := serves.unheld nothing
  have added (registry : Registry) (phase : CallPhase) :
      Executor.phase? { place.executor with
        calls := place.executor.calls ++ [⟨purpose, phase⟩] } place.executor.calls.length =
          some phase := by
    simp [Executor.phase?]
  simp only [Place.call]
  split
  · refine Serves.of_idle served fun handle run isRunning => ?_
    rw [added place.registry] at isRunning
    simp at isRunning
  · split
    · rename_i registry handle acquired
      exact serves_proceed ⟨place.desk, registry, { place.executor with
        calls := place.executor.calls ++ [⟨purpose, .begun⟩] }⟩ (added registry .begun) served
        handle purpose
    · rename_i registry start acquired
      cases turned : turnAcquiring ⟨place.desk, registry, { place.executor with
          calls := place.executor.calls ++ [⟨purpose, .acquiring start⟩] }⟩
          place.executor.calls.length start purpose with
      | none =>
          rw [Option.getD_none]
          refine Serves.of_idle served fun handle run isRunning => ?_
          rw [added registry] at isRunning
          simp at isRunning
      | some next =>
          rw [Option.getD_some]
          exact serves_turnAcquiring ⟨place.desk, registry, { place.executor with
            calls := place.executor.calls ++ [⟨purpose, .acquiring start⟩] }⟩
            (added registry (.acquiring start)) (by simp) served turned

/-! ## What else happens -/

/-- Something happens in the registry that gets no run anywhere. -/
theorem Serves.keepsRuns {registry : Registry} (serves : place.Serves number)
    (keeps : place.registry.KeepsRuns registry) : Serves { place with registry } number := by
  have running : ∀ handle run, place.executor.phase? number = some (.running handle run) →
      ∃ found, registry.run? handle run = some found ∧
        found.broker = place.executor.broker := by
    intro handle run called
    obtain ⟨found, isRun, own⟩ := serves.running handle run called
    exact ⟨found, keeps handle run found isRun, own⟩
  refine ⟨running, ?_⟩
  have same : heldTickets { place with registry } number = place.heldTickets number := by
    cases called : place.run? number with
    | none =>
        have idle : ∀ handle run, place.executor.phase? number ≠ some (.running handle run) := by
          intro handle run isRunning
          obtain ⟨found, isRun, -⟩ := serves.running handle run isRunning
          rw [run?_of_phase? place isRunning, isRun] at called
          contradiction
        exact (heldTickets_of_phase? { place with registry } idle).trans
          (heldTickets_of_phase? place idle).symm
    | some found =>
        simp only [run?] at called
        split at called
        · rename_i handle run isRunning
          have before : place.run? number = some found := by
            rw [run?_of_phase? place isRunning, called]
          have after : run? { place with registry } number = some found :=
            (run?_of_phase? { place with registry } isRunning).trans (keeps handle run found called)
          rw [heldTickets, after, heldTickets, before]
        · contradiction
  rw [same]
  exact serves.serves

/-- The executor is destroyed, and the requests of the call are withdrawn. -/
theorem Serves.destroy (serves : place.Serves number) : place.destroy.Serves number := by
  simp only [Place.destroy]
  split
  · exact serves
  · have kept := serves.keepsRuns (place.registry.keepsRuns_shutdown place.executor.language)
    exact ⟨kept.running, kept.serves.withdraw⟩

/-! ## The broker of an executor -/

section Brokers

theorem KeepsBroker.refl (place : Place) : place.KeepsBroker place := ⟨rfl, fun _ => rfl⟩

theorem keepsBroker_proceed (place : Place) (number handle : Nat) (purpose : Purpose) :
    place.KeepsBroker (place.proceed number handle purpose) := by
  cases purpose with
  | start => exact ⟨rfl, fun _ => rfl⟩
  | execute code =>
      simp only [proceed]
      split
      · exact ⟨rfl, fun _ => rfl⟩
      · rename_i worker found
        obtain ⟨next, values, dealt⟩ := Handle.dealt_run (fun _ => none) false worker place.desk
          place.executor.broker code
        exact ⟨rfl, dealt.deals.hookOf?⟩

theorem keepsBroker_turnAcquiring (turned : place.turnAcquiring number start purpose = some after) :
    place.KeepsBroker after := by
  simp only [turnAcquiring] at turned
  split at turned
  · obtain ⟨registry, -, turned⟩ := Option.bind_eq_some_iff.mp turned
    cases turned
    exact ⟨rfl, fun _ => rfl⟩
  · rename_i outcome settled
    cases outcome with
    | ok handle =>
        cases turned
        have proceeded := keepsBroker_proceed { place with
          registry := place.registry.collect place.executor.language start (.ok handle) }
          number handle purpose
        exact ⟨proceeded.broker, proceeded.hooks⟩
    | error cause =>
        cases turned
        exact ⟨rfl, fun _ => rfl⟩

theorem keepsBroker_turn (turned : place.turn receiver number = some after) :
    place.KeepsBroker after := by
  simp only [turn] at turned
  obtain ⟨call, -, turned⟩ := Option.bind_eq_some_iff.mp turned
  split at turned
  · exact keepsBroker_turnAcquiring turned
  · simp only [turnRunning] at turned
    obtain ⟨worker, -, turned⟩ := Option.bind_eq_some_iff.mp turned
    split at turned
    · cases turned
      exact ⟨rfl, fun _ => rfl⟩
    · obtain ⟨⟨desk, next⟩, moved, turned⟩ := Option.bind_eq_some_iff.mp turned
      cases turned
      obtain ⟨run, -, -, stands, values, dealt⟩ := Handle.dealt_turn receiver
        (fun _ => place.executor.destroyed) (fun _ _ => id) moved
      exact ⟨rfl, dealt.deals.hookOf?⟩
  all_goals contradiction

theorem keepsBroker_call (place : Place) (purpose : Purpose) :
    place.KeepsBroker (place.call purpose).1 := by
  simp only [call]
  split
  · exact ⟨rfl, fun _ => rfl⟩
  · split
    · rename_i registry handle acquired
      obtain ⟨broker, hooks⟩ := keepsBroker_proceed ⟨place.desk, registry,
        { place.executor with calls := place.executor.calls ++ [⟨purpose, .begun⟩] }⟩
        place.executor.calls.length handle purpose
      exact ⟨broker, hooks⟩
    · rename_i registry start acquired
      cases turned : turnAcquiring ⟨place.desk, registry, { place.executor with
          calls := place.executor.calls ++ [⟨purpose, .acquiring start⟩] }⟩
          place.executor.calls.length start purpose with
      | none => exact ⟨rfl, fun _ => rfl⟩
      | some next =>
          obtain ⟨broker, hooks⟩ := keepsBroker_turnAcquiring turned
          exact ⟨broker, hooks⟩

theorem keepsBroker_abandon (place : Place) (number : Nat) :
    place.KeepsBroker (place.abandon number) := by
  simp only [abandon]
  split
  · exact ⟨rfl, fun _ => rfl⟩
  · split
    · exact ⟨rfl, fun _ => rfl⟩
    · rename_i worker found
      refine ⟨rfl, fun other => ?_⟩
      change (worker.abandon place.desk _).1.hookOf? other = _
      simp only [Handle.abandon]
      split
      · rfl
      · split <;> simp [Desk.abandonAll]
  all_goals exact .refl place

theorem keepsBroker_destroy (place : Place) : place.KeepsBroker place.destroy := by
  simp only [destroy]
  split
  · exact .refl place
  · exact ⟨rfl, fun other => by simp⟩

end Brokers

end Place

end Polyglot.Worker
