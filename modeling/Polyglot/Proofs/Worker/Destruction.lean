import Polyglot.Proofs.Worker.Submission

/-!
# Worker executors after they were destroyed

A destroyed executor refuses new calls, so only those that were in flight can still do
anything.  They take turns as before, and what they submit is what `Place.submits?`
says.
-/

namespace Polyglot.Worker

/-- Whether a call that stands there is not over. -/
def CallPhase.isInFlight : CallPhase → Bool
  | .begun | .acquiring _ | .running _ _ => true
  | .finished _ | .abandoned => false

namespace Executor

/-- A call is not over. -/
def InFlight (executor : Executor) (number : Nat) : Prop :=
  ∃ phase, executor.phase? number = some phase ∧ phase.isInFlight = true

/-- A call is in flight after a change of one call only if it was before. -/
theorem inFlight_of_setPhase {executor : Executor} {number other : Nat} {phase : CallPhase}
    (inFlight : (executor.setPhase number phase).InFlight other)
    (was : phase.isInFlight = true → executor.InFlight number) : executor.InFlight other := by
  obtain ⟨found, foundPhase, isInFlight⟩ := inFlight
  by_cases same : number = other
  · subst same
    simp only [phase?, setPhase, List.getElem?_modify_eq, Option.map_eq_map, Option.map_map,
      Option.map_eq_some_iff] at foundPhase
    obtain ⟨call, -, rfl⟩ := foundPhase
    exact was isInFlight
  · refine ⟨found, ?_, isInFlight⟩
    simpa [phase?, setPhase, same] using foundPhase

/-- What stays of a destroyed executor: it is destroyed, and no call comes to be in
flight. -/
structure Persists (before after : Executor) : Prop where
  destroyed : after.destroyed = true
  inFlight : ∀ call, after.InFlight call → before.InFlight call

theorem Persists.refl {executor : Executor} (destroyed : executor.destroyed = true) :
    executor.Persists executor :=
  ⟨destroyed, fun _ inFlight => inFlight⟩

/-- A call that was in flight, or that is over now, has moved. -/
theorem Persists.setPhase {executor : Executor} (destroyed : executor.destroyed = true)
    {number : Nat} {phase : CallPhase}
    (was : phase.isInFlight = true → executor.InFlight number) :
    executor.Persists (executor.setPhase number phase) :=
  ⟨destroyed, fun _ inFlight => inFlight_of_setPhase inFlight was⟩

/-- A call was refused. -/
theorem Persists.refuse {executor : Executor} (destroyed : executor.destroyed = true)
    (purpose : Purpose) (cause : WorkerError) :
    executor.Persists { executor with
      calls := executor.calls ++ [⟨purpose, .finished (.error cause)⟩] } := by
  refine ⟨destroyed, ?_⟩
  rintro call ⟨phase, found, isInFlight⟩
  refine ⟨phase, ?_, isInFlight⟩
  simp only [phase?] at found ⊢
  by_cases below : call < executor.calls.length
  · rwa [List.getElem?_append_left below] at found
  · rw [List.getElem?_append_right (Nat.le_of_not_lt below)] at found
    obtain ⟨refused, foundCall, rfl⟩ := Option.map_eq_some_iff.mp found
    have member := List.mem_of_getElem? foundCall
    obtain rfl : refused = ⟨purpose, .finished (.error cause)⟩ := by simpa using member
    contradiction

end Executor

namespace Place

section Operations

variable {place after : Place} {number : Nat}

theorem executor_proceed (place : Place) (number handle : Nat) (purpose : Purpose) :
    ∃ phase, (place.proceed number handle purpose).executor =
      place.executor.setPhase number phase := by
  cases purpose with
  | start => exact ⟨_, rfl⟩
  | execute code =>
      simp only [proceed]
      split
      · exact ⟨_, rfl⟩
      · exact ⟨_, rfl⟩

/-- A call that waits for a start moves alone. -/
theorem executor_turnAcquiring {start : Nat} {purpose : Purpose}
    (turned : place.turnAcquiring number start purpose = some after) :
    after.executor = place.executor ∨
      ∃ phase, after.executor = place.executor.setPhase number phase := by
  simp only [turnAcquiring] at turned
  split at turned
  · obtain ⟨registry, -, turned⟩ := Option.bind_eq_some_iff.mp turned
    cases turned
    exact .inl rfl
  · split at turned
    · cases turned
      obtain ⟨phase, moved⟩ := executor_proceed { place with
        registry := place.registry.collect place.executor.language start _ } number _ purpose
      exact .inr ⟨phase, moved⟩
    · cases turned
      exact .inr ⟨_, rfl⟩

/-- A turn moves one call that is in flight, and changes nothing else of its
executor. -/
theorem executor_turn {receiver : String → Option Nat}
    (turned : place.turn receiver number = some after) :
    place.executor.InFlight number ∧ (after.executor = place.executor ∨
      ∃ phase, after.executor = place.executor.setPhase number phase) := by
  simp only [turn] at turned
  obtain ⟨⟨purpose, phase⟩, found, turned⟩ := Option.bind_eq_some_iff.mp turned
  have phaseOf : place.executor.phase? number = some phase := by
    simp [Executor.phase?, found]
  cases phase with
  | acquiring start => exact ⟨⟨_, phaseOf, rfl⟩, executor_turnAcquiring turned⟩
  | running handle run =>
      refine ⟨⟨_, phaseOf, rfl⟩, ?_⟩
      simp only [turnRunning] at turned
      obtain ⟨worker, -, turned⟩ := Option.bind_eq_some_iff.mp turned
      split at turned
      · cases turned
        exact .inr ⟨_, rfl⟩
      · obtain ⟨⟨desk, worker⟩, -, turned⟩ := Option.bind_eq_some_iff.mp turned
        cases turned
        exact .inl rfl
  | begun => contradiction
  | finished outcome => contradiction
  | abandoned => contradiction

/-- A new call is added to those that an executor has, and nothing else of it
changes. -/
theorem executor_call (place : Place) (purpose : Purpose) :
    ∃ phase, (place.call purpose).1.executor =
      { place.executor with calls := place.executor.calls ++ [⟨purpose, phase⟩] } := by
  have moved (before phase : CallPhase) :
      Executor.setPhase { place.executor with
        calls := place.executor.calls ++ [⟨purpose, before⟩] } place.executor.calls.length phase =
      { place.executor with calls := place.executor.calls ++ [⟨purpose, phase⟩] } := by
    simp [Executor.setPhase, List.modify_eq_take_cons_drop]
  simp only [call]
  split
  · exact ⟨_, rfl⟩
  · split
    · rename_i registry handle _
      obtain ⟨phase, proceeded⟩ := executor_proceed ⟨place.desk, registry, { place.executor with
        calls := place.executor.calls ++ [⟨purpose, .begun⟩] }⟩ place.executor.calls.length handle
        purpose
      exact ⟨phase, proceeded.trans (moved .begun phase)⟩
    · rename_i registry start _
      cases turned : turnAcquiring ⟨place.desk, registry, { place.executor with
          calls := place.executor.calls ++ [⟨purpose, .acquiring start⟩] }⟩
          place.executor.calls.length start purpose with
      | none => exact ⟨.acquiring start, rfl⟩
      | some after =>
          rcases executor_turnAcquiring turned with same | ⟨phase, changed⟩
          · exact ⟨.acquiring start, same⟩
          · exact ⟨phase, changed.trans (moved (.acquiring start) phase)⟩

theorem executor_abandon (place : Place) (number : Nat) :
    (place.abandon number).executor = place.executor ∨
      (place.abandon number).executor = place.executor.setPhase number .abandoned := by
  simp only [abandon]
  split
  · exact .inr rfl
  · split
    · exact .inr rfl
    · exact .inr rfl
  all_goals exact .inl rfl

/-- A caller who goes away submits nothing. -/
theorem submitted_abandon (place : Place) (number : Nat) :
    place.registry.submitted (place.abandon number).registry = [] := by
  apply Registry.submitted_eq_nil
  intro other
  simp only [abandon]
  split
  · rfl
  · split
    · rfl
    · rename_i worker found
      apply Registry.codes_modifyHandle_same
      intro same foundSame
      rw [found] at foundSame
      rw [← Option.some.inj foundSame]
      exact worker.codes_abandon place.desk _
  all_goals rfl

/-- A destroyed executor refuses a new call. -/
theorem call_of_destroyed (destroyed : place.executor.destroyed = true) (purpose : Purpose) :
    (place.call purpose).1 =
      { place with executor := { place.executor with
        calls := place.executor.calls ++
          [⟨purpose, .finished (.error (.shutDown place.executor.language))⟩] } } := by
  simp only [call, destroyed, if_true]

theorem destroy_of_destroyed (destroyed : place.executor.destroyed = true) :
    place.destroy = place := by
  simp only [destroy, destroyed, if_true]

end Operations

end Place

/-- The call that takes a turn in an occurrence. -/
def Occurrence.polled? : Occurrence → Option Nat
  | .poll _ _ number => some number
  | _ => none

namespace Workshop

/-- An executor was destroyed. -/
def IsDestroyed (shop : Workshop) (executor : Nat) : Prop :=
  ∀ found, shop.executors[executor]? = some found → found.destroyed = true

/-- A call of an executor is not over. -/
def InFlight (shop : Workshop) (executor call : Nat) : Prop :=
  ∃ found, shop.executors[executor]? = some found ∧ found.InFlight call

/-- The code that a call of an executor submits if it takes a turn now. -/
def submits? (shop : Workshop) (executor call : Nat) : Option String :=
  shop.place? executor >>= (·.submits? call)

/-- The code that the calls of an executor submit, in order. -/
def submittedBy (shop : Workshop) (executor : Nat) : List Occurrence → List String
  | [] => []
  | occurrence :: occurrences =>
    (if occurrence.executor? = some executor then
      shop.registry.submitted (shop.step occurrence).registry else []) ++
      (shop.step occurrence).submittedBy executor occurrences

section Change

variable {shop : Workshop} {executor : Nat} {f : Place → Place}

theorem executors_change (shop : Workshop) (changed : Nat) (f : Place → Place) (executor : Nat) :
    (shop.change changed f).executors[executor]? =
      if changed = executor then
        (shop.place? executor).map fun place => (f place).executor
      else shop.executors[executor]? := by
  simp only [change, place?]
  by_cases same : changed = executor
  · subst same
    cases found : shop.executors[changed]? with
    | none => simp [found]
    | some old =>
        have inside := (List.getElem?_eq_some_iff.mp found).1
        simp [put, inside]
  · cases shop.executors[changed]? with
    | none => simp [same]
    | some old => simp [put, same]

theorem registry_change (shop : Workshop) (executor : Nat) (f : Place → Place) :
    (shop.change executor f).registry =
      (shop.place? executor).elim shop.registry fun place => (f place).registry := by
  simp only [change]
  cases shop.place? executor <;> rfl

/-- What happens to an executor happens to no other. -/
theorem step_of_executor? {occurrence : Occurrence}
    (other : occurrence.executor? ≠ some executor) :
    (shop.step occurrence).executors[executor]? = shop.executors[executor]? := by
  have aside (changed : Nat) (different : some changed ≠ some executor) (f : Place → Place) :
      (shop.change changed f).executors[executor]? = shop.executors[executor]? := by
    rw [executors_change, if_neg fun same => different (congrArg some same)]
  cases occurrence with
  | call changed purpose => exact aside changed other _
  | poll receiver changed call => exact aside changed other _
  | abandon changed call => exact aside changed other _
  | destroy changed => exact aside changed other _
  | _ => rfl

section Own

variable {found : Executor} (at_ : shop.executors[executor]? = some found)
include at_

theorem executors_change_own :
    (shop.change executor f).executors[executor]? =
      some (f ⟨shop.desk, shop.registry, found⟩).executor := by
  simp [executors_change, place?, at_]

theorem registry_change_own :
    (shop.change executor f).registry = (f ⟨shop.desk, shop.registry, found⟩).registry := by
  simp [registry_change, place?, at_]

/-- Whatever happens, a destroyed executor stays so, and no call comes to be in
flight. -/
theorem persists_step (destroyed : found.destroyed = true) (occurrence : Occurrence) :
    ∃ next, (shop.step occurrence).executors[executor]? = some next ∧ found.Persists next := by
  by_cases own : occurrence.executor? = some executor
  · have place : (⟨shop.desk, shop.registry, found⟩ : Place).executor.destroyed = true := destroyed
    cases occurrence with
    | call changed purpose =>
        cases own
        refine ⟨_, executors_change_own at_, ?_⟩
        rw [Place.call_of_destroyed place]
        exact .refuse destroyed purpose _
    | poll receiver changed call =>
        cases own
        refine ⟨_, executors_change_own at_, ?_⟩
        cases turned : Place.turn receiver ⟨shop.desk, shop.registry, found⟩ call with
        | none => exact .refl destroyed
        | some after =>
            obtain ⟨inFlight, same | ⟨phase, moved⟩⟩ := Place.executor_turn turned
            · simp only [Option.getD_some, same]
              exact .refl destroyed
            · simp only [Option.getD_some, moved]
              exact .setPhase destroyed fun _ => inFlight
    | abandon changed call =>
        cases own
        refine ⟨_, executors_change_own at_, ?_⟩
        rcases Place.executor_abandon ⟨shop.desk, shop.registry, found⟩ call with same | moved
        · rw [same]
          exact .refl destroyed
        · rw [moved]
          exact .setPhase destroyed fun ended => by contradiction
    | destroy changed =>
        cases own
        refine ⟨_, executors_change_own at_, ?_⟩
        rw [Place.destroy_of_destroyed place]
        exact .refl destroyed
    | _ => contradiction
  · exact ⟨found, by rw [step_of_executor? own, at_], .refl destroyed⟩

/-- Of what happens to a destroyed executor only the turns of its calls submit code. -/
theorem submitted_step (destroyed : found.destroyed = true) {occurrence : Occurrence}
    (own : occurrence.executor? = some executor) :
    shop.registry.submitted (shop.step occurrence).registry =
      (occurrence.polled? >>= shop.submits? executor).toList := by
  have place : (⟨shop.desk, shop.registry, found⟩ : Place).executor.destroyed = true := destroyed
  have nothing : shop.registry.submitted shop.registry = [] :=
    Registry.submitted_eq_nil fun _ => rfl
  cases occurrence with
  | call changed purpose =>
      cases own
      simp only [step, registry_change_own at_, Place.call_of_destroyed place]
      exact nothing
  | poll receiver changed call =>
      cases own
      simp only [step, registry_change_own at_]
      rw [Place.submitted_turn ⟨shop.desk, shop.registry, found⟩]
      simp [Occurrence.polled?, submits?, place?, at_]
  | abandon changed call =>
      cases own
      simp only [step, registry_change_own at_]
      exact Place.submitted_abandon ⟨shop.desk, shop.registry, found⟩ call
  | destroy changed =>
      cases own
      simp only [step, registry_change_own at_, Place.destroy_of_destroyed place]
      exact nothing
  | _ => contradiction

end Own

/-- Nothing happens to an executor that does not exist. -/
theorem step_of_getElem?_eq_none (missing : shop.executors[executor]? = none)
    {occurrence : Occurrence} (own : occurrence.executor? = some executor) :
    shop.step occurrence = shop := by
  have unchanged (f : Place → Place) : shop.change executor f = shop := by
    simp [change, place?, missing]
  cases occurrence with
  | call changed purpose => cases own; exact unchanged _
  | poll receiver changed call => cases own; exact unchanged _
  | abandon changed call => cases own; exact unchanged _
  | destroy changed => cases own; exact unchanged _
  | _ => contradiction

end Change

/-! ## What happens to a destroyed executor -/

section Destroyed

variable {shop : Workshop} {executor : Nat}

theorem isDestroyed_destroy (shop : Workshop) (executor : Nat) :
    (shop.step (.destroy executor)).IsDestroyed executor := by
  intro found at_
  cases old : shop.executors[executor]? with
  | none =>
      rw [step_of_getElem?_eq_none old rfl, old] at at_
      contradiction
  | some before =>
      rw [step, executors_change_own old] at at_
      cases at_
      simp only [Place.destroy]
      split
      · assumption
      · rfl

/-- A destroyed executor is the same one after whatever happens. -/
theorem IsDestroyed.persists (destroyed : shop.IsDestroyed executor) {occurrence : Occurrence}
    {next : Executor} (at_ : (shop.step occurrence).executors[executor]? = some next) :
    ∃ found, shop.executors[executor]? = some found ∧ found.Persists next := by
  cases before : shop.executors[executor]? with
  | none =>
      by_cases own : occurrence.executor? = some executor
      · rw [step_of_getElem?_eq_none before own, before] at at_
        contradiction
      · rw [step_of_executor? own, before] at at_
        contradiction
  | some found =>
      obtain ⟨after, atAfter, persists⟩ :=
        persists_step before (destroyed found before) occurrence
      rw [atAfter] at at_
      exact ⟨found, rfl, Option.some.inj at_ ▸ persists⟩

theorem IsDestroyed.step (destroyed : shop.IsDestroyed executor) (occurrence : Occurrence) :
    (shop.step occurrence).IsDestroyed executor := by
  intro next at_
  obtain ⟨found, -, persists⟩ := destroyed.persists at_
  exact persists.destroyed

theorem IsDestroyed.inFlight_step (destroyed : shop.IsDestroyed executor)
    {occurrence : Occurrence} {call : Nat}
    (inFlight : (shop.step occurrence).InFlight executor call) : shop.InFlight executor call := by
  obtain ⟨next, at_, inFlight⟩ := inFlight
  obtain ⟨found, before, persists⟩ := destroyed.persists at_
  exact ⟨found, before, persists.inFlight call inFlight⟩

/-- Calls of a destroyed executor that are in flight have been so before. -/
theorem IsDestroyed.inFlight_run (destroyed : shop.IsDestroyed executor)
    (occurrences : List Occurrence) {call : Nat}
    (inFlight : (shop.run occurrences).InFlight executor call) : shop.InFlight executor call := by
  induction occurrences generalizing shop with
  | nil => exact inFlight
  | cons occurrence occurrences ih =>
      exact destroyed.inFlight_step (ih (destroyed.step occurrence) inFlight)

theorem IsDestroyed.submitted_step (destroyed : shop.IsDestroyed executor)
    (occurrence : Occurrence) :
    (if occurrence.executor? = some executor then
      shop.registry.submitted (shop.step occurrence).registry else []) =
      if occurrence.executor? = some executor then
        (occurrence.polled? >>= shop.submits? executor).toList else [] := by
  by_cases own : occurrence.executor? = some executor
  · rw [if_pos own, if_pos own]
    cases at_ : shop.executors[executor]? with
    | none =>
        rw [step_of_getElem?_eq_none at_ own]
        have nothing : shop.submits? executor = fun _ => none := by
          funext call
          simp [submits?, place?, at_]
        rw [nothing, Registry.submitted_eq_nil fun _ => rfl]
        cases occurrence.polled? <;> rfl
    | some found => exact Workshop.submitted_step at_ (destroyed found at_) own
  · rw [if_neg own, if_neg own]

/-- What a destroyed executor submits is what its calls submit in their turns. -/
theorem IsDestroyed.submittedBy_eq_nil_iff (destroyed : shop.IsDestroyed executor)
    (occurrences : List Occurrence) :
    shop.submittedBy executor occurrences = [] ↔
      ∀ first receiver call rest, occurrences = first ++ .poll receiver executor call :: rest →
        (shop.run first).submits? executor call = none := by
  induction occurrences generalizing shop with
  | nil => simp [submittedBy]
  | cons occurrence occurrences ih =>
      rw [submittedBy, List.append_eq_nil_iff, ih (destroyed.step occurrence),
        destroyed.submitted_step]
      constructor
      · rintro ⟨now, later⟩ first receiver call rest split
        cases first with
        | nil =>
            cases split
            simpa [Occurrence.executor?, Occurrence.polled?] using now
        | cons head first =>
            cases split
            exact later first receiver call rest rfl
      · intro never
        constructor
        · by_cases own : occurrence.executor? = some executor
          · rw [if_pos own]
            cases occurrence with
            | poll receiver changed call =>
                cases own
                have now : shop.submits? executor call = none :=
                  never [] receiver call occurrences rfl
                simp [Occurrence.polled?, now]
            | _ => rfl
          · rw [if_neg own]
        · rintro first receiver call rest rfl
          exact never (occurrence :: first) receiver call rest rfl

/-- A call that submits code is in flight. -/
theorem inFlight_of_submits? {call : Nat} {code : String}
    (submits : shop.submits? executor call = some code) : shop.InFlight executor call := by
  obtain ⟨place, found, submits⟩ := Option.bind_eq_some_iff.mp submits
  obtain ⟨owner, at_, rfl⟩ := Option.map_eq_some_iff.mp found
  refine ⟨owner, at_, ?_⟩
  simp only [Place.submits?] at submits
  split at submits
  · rename_i code start standing
    exact ⟨.acquiring start, by simp [Executor.phase?, standing], rfl⟩
  · rename_i purpose handle run standing
    exact ⟨.running handle run, by simp [Executor.phase?, standing], rfl⟩
  · contradiction

theorem inFlight_destroy {call : Nat} (shop : Workshop)
    (inFlight : (shop.step (.destroy executor)).InFlight executor call) :
    shop.InFlight executor call := by
  obtain ⟨next, atNext, inFlight⟩ := inFlight
  cases old : shop.executors[executor]? with
  | none =>
      rw [step_of_getElem?_eq_none old rfl, old] at atNext
      contradiction
  | some before =>
      rw [step, executors_change_own old] at atNext
      cases atNext
      refine ⟨before, old, ?_⟩
      simp only [Place.destroy] at inFlight
      split at inFlight
      · exact inFlight
      · exact inFlight

end Destroyed

end Workshop

end Polyglot.Worker
