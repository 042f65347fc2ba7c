import Polyglot.Proofs.Worker.Destruction
import Polyglot.Proofs.Worker.Lending

/-!
# Executors that borrow workers

While one executor at a time uses a registry, a call of it gets a worker that is quiet,
and its result is collected from what was said for its own code.  A call that is given up
leaves nothing behind once its executor is destroyed: the worker that it used is not kept.
-/

namespace Polyglot

namespace Worker

namespace CallPhase

/-- What is being done with the worker while a call is that far. -/
def job (language : String) (owner : Nat) (code : String) : CallPhase → Job
  | .acquiring start => .acquiring language start
  | .running handle run => .running language handle run owner code
  | .begun | .finished _ | .abandoned => .idle

/-- A call that is over has a result of its owner's, or failed for a reason of the
host's. -/
def IsOwn (failures : List TransportError) (accounts : Nat → Account) (owner : Nat)
    (code : String) : CallPhase → Prop
  | .finished (.ok (some result)) => ∃ number, (accounts number).Yields failures owner code result
  | .finished (.error cause) => cause.IsOwn failures
  | .finished (.ok none) | .begun | .acquiring _ | .running _ _ | .abandoned => True

/-- A result stays its owner's when more was emitted and more launches have failed. -/
theorem IsOwn.mono {failures more : List TransportError} {accounts accounts' : Nat → Account}
    {owner : Nat} {code : String} {phase : CallPhase}
    (isOwn : phase.IsOwn failures accounts owner code)
    (later : ∀ handle, (accounts handle).Extends (accounts' handle)) (subset : failures ⊆ more) :
    phase.IsOwn more accounts' owner code := by
  cases phase with
  | finished outcome =>
      cases outcome with
      | ok result =>
          cases result with
          | none => trivial
          | some result =>
              obtain ⟨handle, yields⟩ := isOwn
              exact ⟨handle, yields.mono (later handle) subset⟩
      | error cause => exact WorkerError.IsOwn.mono isOwn subset
  | begun => trivial
  | acquiring start => trivial
  | running handle run => trivial
  | abandoned => trivial

end CallPhase

namespace Executor

/-- An executor of a registry that is doing nothing with a worker. -/
structure Idles (failures : List TransportError) (executor : Executor) (registry : Registry)
    (accounts : Nat → Account) : Prop where
  serves : registry.Serves failures accounts .idle
  /-- Nothing is kept for the language of an executor that was destroyed. -/
  forgotten : executor.destroyed = true → registry.slot? executor.language = none

/-- An executor of a registry whose caller has gone away. -/
structure Quits (failures : List TransportError) (executor : Executor) (registry : Registry)
    (accounts : Nat → Account) : Prop where
  serves : registry.Serves failures accounts (.gone executor.language)
  forgotten : executor.destroyed = true → registry.slot? executor.language = none

/-- An executor of a registry that does somebody's call, and nothing else. -/
structure Tends (failures : List TransportError) (executor : Executor) (registry : Registry)
    (accounts : Nat → Account) (number owner : Nat) (code : String) : Prop where
  does : ∃ purpose phase, executor.calls[number]? = some ⟨purpose, phase⟩ ∧ purpose.code = code ∧
    registry.Serves failures accounts (phase.job executor.language owner code) ∧
    phase.IsOwn failures accounts owner code
  forgotten : executor.destroyed = true → registry.slot? executor.language = none

variable {executor : Executor} {registry after : Registry} {accounts accounts' : Nat → Account}
  {failures : List TransportError} {number owner : Nat} {purpose : Purpose} {phase : CallPhase}
  {code : String}

theorem tends_setPhase (called : executor.calls[number]? = some ⟨purpose, phase⟩)
    {next : CallPhase}
    (serves : registry.Serves failures accounts (next.job executor.language owner purpose.code))
    (isOwn : next.IsOwn failures accounts owner purpose.code)
    (forgotten : executor.destroyed = true → registry.slot? executor.language = none) :
    (executor.setPhase number next).Tends failures registry accounts number owner purpose.code :=
  ⟨⟨purpose, next, by simp [setPhase, called], rfl, serves, isOwn⟩, forgotten⟩

/-- What happens to the registry without the executor leaves its call what it is. -/
theorem Tends.keep (tends : executor.Tends failures registry accounts number owner code)
    (serves : ∀ job, registry.Serves failures accounts job → after.Serves failures accounts' job)
    (extends_ : ∀ handle, (accounts handle).Extends (accounts' handle))
    (slots : registry.slot? executor.language = none → after.slot? executor.language = none) :
    executor.Tends failures after accounts' number owner code := by
  obtain ⟨⟨purpose, phase, called, isCode, serving, isOwn⟩, forgotten⟩ := tends
  exact ⟨⟨purpose, phase, called, isCode, serves _ serving, isOwn.mono extends_ (.refl failures)⟩,
    fun destroyed => slots (forgotten destroyed)⟩

/-- A call stays somebody's when more launches have failed. -/
theorem Tends.mono (tends : executor.Tends failures registry accounts number owner code)
    {more : List TransportError} (subset : failures ⊆ more) :
    executor.Tends more registry accounts number owner code := by
  obtain ⟨⟨purpose, phase, called, isCode, serving, isOwn⟩, forgotten⟩ := tends
  exact ⟨⟨purpose, phase, called, isCode, serving.mono subset,
    isOwn.mono (fun _ => .refl _) subset⟩, forgotten⟩

/-- A call that is over has done with its worker. -/
theorem Tends.ended (tends : executor.Tends failures registry accounts number owner code)
    {outcome : Except WorkerError (Option RunResult)}
    (ended : executor.outcome? number = some outcome) :
    executor.Idles failures registry accounts ∧
      (CallPhase.finished outcome).IsOwn failures accounts owner code := by
  obtain ⟨⟨purpose, phase, called, isCode, serving, isOwn⟩, forgotten⟩ := tends
  have isFinished : phase = .finished outcome := by
    simp only [outcome?, phase?, called, Option.map_some] at ended
    split at ended
    · rename_i same finished
      rw [Option.some.inj finished, Option.some.inj ended]
    · contradiction
  subst isFinished
  exact ⟨⟨serving, forgotten⟩, isOwn⟩

end Executor

namespace Place

open Registry

variable {place after : Place} {accounts : Nat → Account} {failures : List TransportError}
  {number owner handle start run : Nat} {purpose : Purpose} {phase : CallPhase} {code : String}

/-- A call that has its worker is over, or submits its code. -/
theorem tends_proceed (place : Place)
    (called : place.executor.calls[number]? = some ⟨purpose, phase⟩)
    (idles : place.executor.Idles failures place.registry accounts)
    (rests : place.registry.Rests accounts place.executor.language handle) (owner : Nat) :
    ∃ accounts',
      Posts owner place.registry.codes accounts
          (place.proceed number handle purpose).registry.codes accounts' ∧
      (place.proceed number handle purpose).executor.Tends failures
        (place.proceed number handle purpose).registry accounts' number owner purpose.code := by
  cases purpose with
  | start =>
      exact ⟨accounts, posts_nothing owner accounts fun _ => rfl,
        Executor.tends_setPhase called idles.serves trivial idles.forgotten⟩
  | execute code =>
      obtain ⟨worker, found, isLanguage, resting⟩ := rests
      obtain ⟨accounts', posts, serves⟩ := idles.serves.lend found
        ⟨worker, found, isLanguage, resting⟩ place.desk place.executor.broker owner code
      simp only [proceed, found]
      exact ⟨accounts', posts, Executor.tends_setPhase called serves trivial idles.forgotten⟩

/-- A call that waits for a start takes a turn. -/
theorem tends_turnAcquiring
    (called : place.executor.calls[number]? = some ⟨purpose, .acquiring start⟩)
    (serves : place.registry.Serves failures accounts (.acquiring place.executor.language start))
    (forgotten : place.executor.destroyed = true →
      place.registry.slot? place.executor.language = none)
    (turned : place.turnAcquiring number start purpose = some after) (owner : Nat) :
    ∃ accounts', Posts owner place.registry.codes accounts after.registry.codes accounts' ∧
      after.executor.Tends failures after.registry accounts' number owner purpose.code := by
  simp only [turnAcquiring] at turned
  split at turned
  · obtain ⟨registry, moved, turned⟩ := Option.bind_eq_some_iff.mp turned
    cases turned
    refine ⟨accounts, posts_nothing owner accounts fun other =>
      codes_turnStart place.registry other moved, ?_⟩
    refine ⟨⟨purpose, _, called, rfl, serves.turnStart moved, trivial⟩, ?_⟩
    simpa only [slot?, slots_turnStart moved] using forgotten
  · rename_i outcome settled
    obtain ⟨collected, rests, isOwn⟩ := serves.collect settled
    have codes (other : Nat) :=
      codes_collect place.registry other place.executor.language start outcome
    have idles : place.executor.Idles failures
        (place.registry.collect place.executor.language start outcome) accounts := by
      refine ⟨collected, fun destroyed => ?_⟩
      rw [slot?_collect, forgotten destroyed]
      simp
    split at turned
    · rename_i handle
      cases turned
      obtain ⟨accounts', posts, tends⟩ := tends_proceed
        { place with registry := place.registry.collect place.executor.language start (.ok handle) }
        called idles (rests handle rfl) owner
      exact ⟨accounts', (posts_nothing owner accounts codes).trans posts, tends⟩
    · rename_i cause
      cases turned
      exact ⟨accounts, posts_nothing owner accounts codes,
        Executor.tends_setPhase called collected (isOwn cause rfl) idles.forgotten⟩

/-- An executor that does nothing is called. -/
theorem tends_call (idles : place.executor.Idles failures place.registry accounts)
    (purpose : Purpose) (owner : Nat) :
    ∃ accounts',
      Posts owner place.registry.codes accounts (place.call purpose).1.registry.codes accounts' ∧
      (place.call purpose).1.executor.Tends failures (place.call purpose).1.registry accounts'
        (place.call purpose).2 owner purpose.code := by
  have called (phase : CallPhase) :
      (place.executor.calls ++ [⟨purpose, phase⟩])[place.executor.calls.length]? =
        some ⟨purpose, phase⟩ := List.getElem?_concat_length
  simp only [call]
  split
  · exact ⟨accounts, posts_nothing owner accounts fun _ => rfl,
      ⟨purpose, _, called _, rfl, idles.serves, trivial⟩, idles.forgotten⟩
  · rename_i living
    rcases idles.serves.acquire place.executor.language place.executor.launcher
      place.executor.timeout with
      ⟨handle, acquired, rests⟩ | ⟨registry, start, acquired, handles, serves⟩
    · simp only [acquired]
      exact tends_proceed { place with executor := { place.executor with
        calls := place.executor.calls ++ [⟨purpose, .begun⟩] } } (called _)
        ⟨idles.serves, idles.forgotten⟩ rests owner
    · simp only [acquired]
      have joined : Posts owner place.registry.codes accounts registry.codes accounts :=
        posts_nothing owner accounts (codes_congr handles)
      have forgotten : place.executor.destroyed = true →
          registry.slot? place.executor.language = none := fun destroyed => absurd destroyed living
      cases turned : turnAcquiring ⟨place.desk, registry, { place.executor with
          calls := place.executor.calls ++ [⟨purpose, .acquiring start⟩] }⟩
          place.executor.calls.length start purpose with
      | none =>
          exact ⟨accounts, joined, ⟨purpose, _, called _, rfl, serves, trivial⟩, forgotten⟩
      | some next =>
          obtain ⟨accounts', posts, tends⟩ := tends_turnAcquiring (called _) serves forgotten turned
            owner
          exact ⟨accounts', joined.trans posts, tends⟩

/-- A call takes a turn. -/
theorem tends_turn (tends : place.executor.Tends failures place.registry accounts number owner code)
    {receiver : String → Option Nat} (turned : place.turn receiver number = some after) :
    ∃ accounts', Posts owner place.registry.codes accounts after.registry.codes accounts' ∧
      after.executor.Tends failures after.registry accounts' number owner code := by
  obtain ⟨⟨purpose, phase, called, rfl, serves, isOwn⟩, forgotten⟩ := tends
  simp only [turn, called, Option.bind_eq_bind, Option.bind_some] at turned
  cases phase with
  | acquiring start => exact tends_turnAcquiring called serves forgotten turned owner
  | running handle run =>
      obtain ⟨worker, found, isLanguage, serving⟩ := serves.does
      simp only [turnRunning, found, Option.bind_eq_bind, Option.bind_some] at turned
      split at turned
      · rename_i result ended
        cases turned
        obtain ⟨finished, yields⟩ := serves.finished found ended
        exact ⟨accounts, posts_nothing owner accounts fun _ => rfl,
          Executor.tends_setPhase called finished ⟨handle, yields⟩ forgotten⟩
      · obtain ⟨⟨desk, next⟩, moved, turned⟩ := Option.bind_eq_some_iff.mp turned
        cases turned
        obtain ⟨codes, submitted, served⟩ := serving.turn moved
        have same := Handle.language_turn moved
        have hosts := serves.host (fun _ _ excuses => excuses) (fun _ _ => id) found
          (same.trans isLanguage) same served
        exact ⟨_, posts_modifyHandle found submitted owner accounts,
          ⟨purpose, _, called, rfl, hosts, trivial⟩, forgotten⟩
  | begun => contradiction
  | finished outcome => contradiction
  | abandoned => contradiction

/-- The caller of a call goes away. -/
theorem quits_abandon
    (tends : place.executor.Tends failures place.registry accounts number owner code) :
    (place.abandon number).executor.Quits failures (place.abandon number).registry accounts := by
  obtain ⟨⟨purpose, phase, called, rfl, serves, isOwn⟩, forgotten⟩ := tends
  have phaseOf : place.executor.phase? number = some phase := by simp [Executor.phase?, called]
  simp only [abandon, phaseOf]
  cases phase with
  | acquiring start =>
      exact ⟨serves.leave fun _ same => (Option.some.inj same).symm, forgotten⟩
  | running handle run =>
      obtain ⟨worker, found, isLanguage, serving⟩ := serves.does
      have same := worker.language_abandon place.desk run
      have hosts := serves.host (fun _ _ excuses => excuses) (fun _ _ => id) found
        (same.trans isLanguage) same (Handle.serves_abandon serving place.desk)
      rw [accounts_same] at hosts
      simp only [found]
      exact ⟨hosts.leave fun _ same => (Option.some.inj same).symm, forgotten⟩
  | begun => exact ⟨serves.leave fun _ same => by contradiction, forgotten⟩
  | finished outcome => exact ⟨serves.leave fun _ same => by contradiction, forgotten⟩
  | abandoned => exact ⟨serves.leave fun _ same => by contradiction, forgotten⟩

/-- Nothing is left of a call that was given up once the executor is destroyed. -/
theorem idles_destroy (quits : place.executor.Quits failures place.registry accounts) :
    place.destroy.executor.Idles failures place.destroy.registry accounts := by
  simp only [destroy]
  split
  · rename_i destroyed
    exact ⟨quits.serves.rest (quits.forgotten destroyed), quits.forgotten⟩
  · have nothing : (place.registry.shutdown place.executor.language).1.slot?
        place.executor.language = none := by
      rw [slot?_shutdown, if_pos rfl]
    exact ⟨(quits.serves.shutdown _).rest nothing, fun _ => nothing⟩

/-- An executor that is destroyed goes on with its call. -/
theorem tends_destroy
    (tends : place.executor.Tends failures place.registry accounts number owner code) :
    place.destroy.executor.Tends failures place.destroy.registry accounts number owner code := by
  simp only [destroy]
  split
  · exact tends
  · obtain ⟨purpose, phase, called, isCode, serves, isOwn⟩ := tends.does
    refine ⟨⟨purpose, phase, called, isCode, serves.shutdown _, isOwn⟩, fun _ => ?_⟩
    rw [slot?_shutdown, if_pos rfl]

end Place

end Worker

end Polyglot
