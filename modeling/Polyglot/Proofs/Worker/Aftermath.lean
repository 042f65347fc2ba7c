import Polyglot.Proofs.Worker.Destruction
import Polyglot.Proofs.Worker.Seating
import Polyglot.Proofs.Worker.Upkeep

/-!
# What a destroyed executor leaves behind

The outcome of a start is kept only while the start itself is what the registry keeps for
the language.  Destroying an executor makes the registry forget the start that its calls
wait for, and a number of a start is never used twice.  So whatever the calls of a
destroyed executor do, what the registry keeps stays as others have left it.
-/

namespace Polyglot.Worker

namespace Registry

/-- No start is kept that has not begun. -/
def Begun (registry : Registry) : Prop :=
  ∀ language start, registry.slot? language = some (.starting start) →
    start < registry.starts.length

/-- What becomes of what a registry keeps while nobody asks for the worker of a language
that is not among those. -/
structure Renews (asked : String → Prop) (before after : Registry) : Prop where
  length : before.starts.length ≤ after.starts.length
  /-- A start that is kept was kept before or is a new one. -/
  starting : ∀ language start, after.slot? language = some (.starting start) →
    before.slot? language = some (.starting start) ∨
      before.starts.length ≤ start ∧ start < after.starts.length
  vacant : ∀ language, ¬asked language → before.slot? language = none →
    after.slot? language = none

variable {asked : String → Prop} {registry before middle after : Registry} {language : String}
  {number : Nat}

theorem Renews.trans (first : before.Renews asked middle) (second : middle.Renews asked after) :
    before.Renews asked after where
  length := Nat.le_trans first.length second.length
  starting language start kept := by
    rcases second.starting language start kept with was | ⟨new, begun⟩
    · rcases first.starting language start was with wasFirst | ⟨new, begun⟩
      · exact .inl wasFirst
      · exact .inr ⟨new, Nat.lt_of_lt_of_le begun second.length⟩
    · exact .inr ⟨Nat.le_trans first.length new, begun⟩
  vacant language unasked unkept :=
    second.vacant language unasked (first.vacant language unasked unkept)

theorem Renews.mono (renews : before.Renews asked after) {more : String → Prop}
    (wider : ∀ language, asked language → more language) : before.Renews more after :=
  { renews with vacant := fun language unasked =>
      renews.vacant language fun isAsked => unasked (wider language isAsked) }

theorem Renews.begun (renews : before.Renews asked after) (begun : before.Begun) :
    after.Begun := by
  intro language start kept
  rcases renews.starting language start kept with was | ⟨-, isNew⟩
  · exact Nat.lt_of_lt_of_le (begun language start was) renews.length
  · exact isNew

/-- A start that was over or forgotten is not kept again. -/
theorem Renews.unkept (renews : before.Renews asked after) {start : Nat}
    (isOld : start < before.starts.length)
    (unkept : before.slot? language ≠ some (.starting start)) :
    after.slot? language ≠ some (.starting start) := by
  intro kept
  rcases renews.starting language start kept with was | ⟨isNew, -⟩
  · exact unkept was
  · exact absurd isOld (Nat.not_lt.mpr isNew)

/-! ## What is done with a registry -/

/-- Nothing is kept that was not kept, but the end of a start. -/
theorem renews_of_slot? (length : after.starts.length = before.starts.length)
    (slots : ∀ language slot, after.slot? language = some slot →
      before.slot? language = some slot ∨
        before.slot? language ≠ none ∧ ∀ start, slot ≠ .starting start) :
    before.Renews asked after where
  length := Nat.le_of_eq length.symm
  starting language start kept := by
    rcases slots language _ kept with was | ⟨-, other⟩
    · exact .inl was
    · exact absurd rfl (other start)
  vacant language _ unkept := by
    rw [Option.eq_none_iff_forall_ne_some]
    intro slot kept
    rcases slots language slot kept with was | ⟨found, -⟩
    · rw [unkept] at was
      contradiction
    · exact found unkept

theorem renews_of_slots (slots : after.slots = before.slots)
    (length : after.starts.length = before.starts.length) : before.Renews asked after :=
  renews_of_slot? length fun language slot kept => .inl (by rwa [slot?, ← slots])

theorem Renews.refl (registry : Registry) : registry.Renews asked registry :=
  renews_of_slots rfl rfl

theorem renews_turnStart (turned : registry.turnStart number = some after) :
    registry.Renews asked after :=
  renews_of_slots (slots_turnStart turned) (length_turnStart turned)

theorem renews_expire (registry : Registry) (number : Nat) :
    registry.Renews asked (registry.expire number) :=
  renews_of_slot? (registry.length_expire number) fun language slot kept =>
    .inl (by rwa [slot?_expire] at kept)

theorem renews_collect (registry : Registry) (language : String) (number : Nat)
    (outcome : Except WorkerError Nat) :
    registry.Renews asked (registry.collect language number outcome) := by
  refine renews_of_slot? (by rw [starts_collect]) fun other slot isKept => ?_
  rw [slot?_collect] at isKept
  split at isKept
  · rename_i waits
    cases isKept
    refine .inr ⟨by simp [waits.1, waits.2], fun start => ?_⟩
    cases outcome <;> simp [kept]
  · exact .inl isKept

theorem renews_shutdown (registry : Registry) (language : String) :
    registry.Renews asked (registry.shutdown language).1 := by
  refine renews_of_slot? (by rw [starts_shutdown]) fun other slot kept => .inl ?_
  rw [slot?_shutdown] at kept
  split at kept
  · contradiction
  · exact kept

theorem renews_shutdownAll (registry : Registry) :
    registry.Renews asked registry.shutdownAll := by
  refine renews_of_slot? (by rw [starts_shutdownAll]) fun other slot kept => ?_
  rw [slot?_shutdownAll] at kept
  contradiction

theorem renews_acquire (registry : Registry) (language : String) (launcher : Nat)
    (timeout : Duration) :
    registry.Renews (· = language) (registry.acquire language launcher timeout).1 := by
  rcases registry.vacant_or_kept language with isVacant | ⟨number, pending⟩ |
    ⟨handle, ready, isAlive⟩
  · rw [acquire_of_vacant isVacant]
    have slots (other : String) :
        slot? { registry.setSlot language (.starting registry.starts.length) with
            starts := registry.starts ++ [{ language, launcher, timeout }] } other =
          if other = language then some (.starting registry.starts.length)
          else registry.slot? other := slot?_setSlot ..
    refine ⟨by simp, fun other start kept => ?_, fun other unasked unkept => ?_⟩
    · rw [slots] at kept
      split at kept
      · cases kept
        exact .inr (by simp)
      · exact .inl kept
    · rw [slots, if_neg unasked, unkept]
  · rw [acquire_of_starting pending]
    exact .refl registry
  · rw [acquire_of_ready ready isAlive]
    exact .refl registry

/-- A start that is not kept does not come to be kept when somebody has its outcome. -/
theorem slots_collect_of_ne (unkept : registry.slot? language ≠ some (.starting number))
    (outcome : Except WorkerError Nat) :
    (registry.collect language number outcome).slots = registry.slots := by
  simp only [collect, if_neg unkept]

/-- The start that a caller joined has begun. -/
theorem Begun.joined {launcher : Nat} {timeout : Duration} (begun : registry.Begun)
    (acquired : registry.acquire language launcher timeout = (after, .joined number)) :
    number < after.starts.length := by
  rcases registry.vacant_or_kept language with isVacant | ⟨pending, kept⟩ |
    ⟨handle, ready, isAlive⟩
  · rw [acquire_of_vacant isVacant] at acquired
    cases acquired
    simp
  · rw [acquire_of_starting kept] at acquired
    cases acquired
    exact begun language number kept
  · rw [acquire_of_ready ready isAlive] at acquired
    cases acquired

end Registry

namespace Executor

/-- A call of an executor waits for a start. -/
def Awaits (executor : Executor) (start : Nat) : Prop :=
  ∃ call, executor.phase? call = some (.acquiring start)

variable {executor : Executor} {number start : Nat} {phase : CallPhase}

theorem awaits_of_setPhase (other : ∀ start, phase ≠ .acquiring start)
    (awaits : (executor.setPhase number phase).Awaits start) : executor.Awaits start := by
  obtain ⟨call, waits⟩ := awaits
  refine ⟨call, ?_⟩
  by_cases same : number = call
  · subst same
    simp only [phase?, setPhase, List.getElem?_modify_eq, Option.map_eq_map, Option.map_map,
      Option.map_eq_some_iff] at waits
    obtain ⟨_, -, isPhase⟩ := waits
    exact absurd isPhase (other start)
  · simpa [phase?, setPhase, same] using waits

/-- A call that is made waits for what it was made to wait for. -/
theorem awaits_of_call {purpose : Purpose}
    (awaits : Awaits { executor with calls := executor.calls ++ [⟨purpose, phase⟩] } start) :
    executor.Awaits start ∨ phase = .acquiring start := by
  obtain ⟨call, waits⟩ := awaits
  obtain ⟨found, isFound, isPhase⟩ := Option.map_eq_some_iff.mp waits
  rcases Registry.getElem?_concat isFound with wasThere | rfl
  · exact .inl ⟨call, by rw [phase?, wasThere, Option.map_some, isPhase]⟩
  · exact .inr isPhase

end Executor

namespace Place

/-- What becomes of an executor and of its registry when its caller acts, and asks for the
worker of none but those languages. -/
structure Acts (asked : String → Prop) (before after : Place) : Prop where
  renews : before.registry.Renews asked after.registry
  language : after.executor.language = before.executor.language
  /-- A call waits for a start that it waited for, or was made to wait. -/
  awaits : ∀ start, after.executor.Awaits start →
    before.executor.Awaits start ∨
      before.executor.destroyed = false ∧ start < after.registry.starts.length
  /-- An executor is destroyed only if the worker of its language is forgotten. -/
  destroyed : after.executor.destroyed = true → before.executor.destroyed = true ∨
    after.registry.slot? after.executor.language = none

variable {asked : String → Prop} {place before after : Place} {number start : Nat}
  {receiver : String → Option Nat}

/-- Nothing is done with an executor but that a call of it may stop waiting. -/
theorem Acts.of_executor (renews : before.registry.Renews asked after.registry)
    (moved : after.executor = before.executor ∨
      ∃ number phase, (∀ start, phase ≠ .acquiring start) ∧
        after.executor = before.executor.setPhase number phase) :
    before.Acts asked after := by
  rcases moved with same | ⟨number, phase, other, same⟩
  · exact ⟨renews, by rw [same], fun start awaits => .inl (same ▸ awaits),
      fun destroyed => .inl (same ▸ destroyed)⟩
  · refine ⟨renews, by rw [same]; rfl, fun start awaits => .inl ?_, fun destroyed => .inl ?_⟩
    · rw [same] at awaits
      exact Executor.awaits_of_setPhase other awaits
    · rw [same] at destroyed
      exact destroyed

theorem Acts.mono (acts : before.Acts asked after) {more : String → Prop}
    (wider : ∀ language, asked language → more language) : before.Acts more after :=
  { acts with renews := acts.renews.mono wider }

theorem Acts.refl (place : Place) : place.Acts asked place :=
  .of_executor (.refl _) (.inl rfl)

/-- The registry is changed before the caller acts. -/
theorem Acts.of_renewed {registry : Registry} (acts : Acts asked { before with registry } after)
    (renews : before.registry.Renews asked registry) : before.Acts asked after where
  renews := renews.trans acts.renews
  language := acts.language
  awaits := acts.awaits
  destroyed := acts.destroyed

theorem slots_proceed (place : Place) (number handle : Nat) (purpose : Purpose) :
    (place.proceed number handle purpose).registry.slots = place.registry.slots ∧
      (place.proceed number handle purpose).registry.starts = place.registry.starts := by
  cases purpose with
  | start => exact ⟨rfl, rfl⟩
  | execute code =>
      simp only [proceed]
      split <;> exact ⟨rfl, rfl⟩

/-- A call that has its worker does not wait any more. -/
theorem acts_proceed (place : Place) (number handle : Nat) (purpose : Purpose) :
    place.Acts asked (place.proceed number handle purpose) := by
  obtain ⟨slots, starts⟩ := place.slots_proceed number handle purpose
  refine .of_executor
    (Registry.renews_of_slots slots (congrArg List.length starts)) (.inr ?_)
  cases purpose with
  | start => exact ⟨_, _, by simp, rfl⟩
  | execute code =>
      simp only [proceed]
      split <;> exact ⟨_, _, by simp, rfl⟩

theorem acts_turnAcquiring {purpose : Purpose}
    (turned : place.turnAcquiring number start purpose = some after) :
    place.Acts asked after := by
  simp only [turnAcquiring] at turned
  split at turned
  · obtain ⟨registry, started, turned⟩ := Option.bind_eq_some_iff.mp turned
    cases turned
    exact .of_executor (Registry.renews_turnStart started) (.inl rfl)
  · rename_i outcome settled
    have collected : place.registry.Renews asked
        (place.registry.collect place.executor.language start outcome) :=
      Registry.renews_collect ..
    cases outcome with
    | ok handle =>
        cases turned
        exact (acts_proceed _ number handle purpose).of_renewed collected
    | error cause =>
        cases turned
        exact .of_executor collected (.inr ⟨_, _, by simp, rfl⟩)

/-- A call that waits for a start that is not kept changes nothing of what is kept. -/
theorem slots_turnAcquiring {purpose : Purpose}
    (unkept : place.registry.slot? place.executor.language ≠ some (.starting start))
    (turned : place.turnAcquiring number start purpose = some after) :
    after.registry.slots = place.registry.slots := by
  simp only [turnAcquiring] at turned
  split at turned
  · obtain ⟨registry, started, turned⟩ := Option.bind_eq_some_iff.mp turned
    cases turned
    exact Registry.slots_turnStart started
  · rename_i outcome settled
    have collected := Registry.slots_collect_of_ne unkept outcome
    cases outcome with
    | ok handle =>
        cases turned
        exact (slots_proceed _ number handle purpose).1.trans collected
    | error cause =>
        cases turned
        exact collected

theorem acts_turn (turned : place.turn receiver number = some after) :
    place.Acts asked after := by
  simp only [turn] at turned
  obtain ⟨⟨purpose, phase⟩, -, turned⟩ := Option.bind_eq_some_iff.mp turned
  cases phase with
  | acquiring start => exact acts_turnAcquiring turned
  | running handle run =>
      simp only [turnRunning] at turned
      obtain ⟨worker, -, turned⟩ := Option.bind_eq_some_iff.mp turned
      split at turned
      · cases turned
        exact .of_executor (.refl _) (.inr ⟨_, _, by simp, rfl⟩)
      · obtain ⟨⟨desk, worker⟩, -, turned⟩ := Option.bind_eq_some_iff.mp turned
        cases turned
        exact .of_executor (Registry.renews_of_slots rfl rfl) (.inl rfl)
  | begun => contradiction
  | finished outcome => contradiction
  | abandoned => contradiction

/-- An executor whose calls wait for no start that is kept changes nothing of what is
kept when one of them takes a turn. -/
theorem slots_turn
    (unkept : ∀ start, place.executor.Awaits start →
      place.registry.slot? place.executor.language ≠ some (.starting start))
    (turned : place.turn receiver number = some after) :
    after.registry.slots = place.registry.slots := by
  simp only [turn] at turned
  obtain ⟨⟨purpose, phase⟩, found, turned⟩ := Option.bind_eq_some_iff.mp turned
  cases phase with
  | acquiring start =>
      exact slots_turnAcquiring (unkept start ⟨number, by simp [Executor.phase?, found]⟩) turned
  | running handle run =>
      simp only [turnRunning] at turned
      obtain ⟨worker, -, turned⟩ := Option.bind_eq_some_iff.mp turned
      split at turned
      · cases turned
        rfl
      · obtain ⟨⟨desk, worker⟩, -, turned⟩ := Option.bind_eq_some_iff.mp turned
        cases turned
        rfl
  | begun => contradiction
  | finished outcome => contradiction
  | abandoned => contradiction

theorem slots_abandon (place : Place) (number : Nat) :
    (place.abandon number).registry.slots = place.registry.slots ∧
      (place.abandon number).registry.starts = place.registry.starts := by
  simp only [abandon]
  split
  · exact ⟨rfl, rfl⟩
  · split <;> exact ⟨rfl, rfl⟩
  all_goals exact ⟨rfl, rfl⟩

theorem acts_abandon (place : Place) (number : Nat) :
    place.Acts asked (place.abandon number) := by
  obtain ⟨slots, starts⟩ := place.slots_abandon number
  refine .of_executor
    (Registry.renews_of_slots slots (congrArg List.length starts)) ?_
  rcases place.executor_abandon number with same | moved
  · exact .inl same
  · exact .inr ⟨_, _, by simp, moved⟩

theorem acts_destroy (place : Place) : place.Acts asked place.destroy := by
  simp only [destroy]
  split
  · exact .refl place
  · exact {
      renews := place.registry.renews_shutdown _
      language := rfl
      awaits := fun start awaits => .inl awaits
      destroyed := fun _ => .inr (by simp [Registry.slot?_shutdown]) }

/-- Destroying an executor leaves nothing kept for its language. -/
theorem slot?_destroy (place : Place) (stands : place.executor.destroyed = false) :
    place.destroy.registry.slot? place.executor.language = none := by
  simp [destroy, stands, Registry.slot?_shutdown]

/-- A call that was just made goes on. -/
theorem Acts.call {registry : Registry} {purpose : Purpose} {phase : CallPhase}
    (acts : Acts asked ⟨place.desk, registry, { place.executor with
      calls := place.executor.calls ++ [⟨purpose, phase⟩] }⟩ after)
    (renews : place.registry.Renews asked registry)
    (joined : ∀ start, phase = .acquiring start →
      place.executor.destroyed = false ∧ start < registry.starts.length) :
    place.Acts asked after where
  renews := renews.trans acts.renews
  language := acts.language
  destroyed := acts.destroyed
  awaits start awaits := by
    rcases acts.awaits start awaits with waited | isNew
    · rcases Executor.awaits_of_call waited with was | isPhase
      · exact .inl was
      · obtain ⟨stands, begun⟩ := joined start isPhase
        exact .inr ⟨stands, Nat.lt_of_lt_of_le begun acts.renews.length⟩
    · exact .inr isNew

/-- Only an executor that is not destroyed asks the registry when it is called. -/
theorem acts_call (begun : place.registry.Begun) (purpose : Purpose) :
    place.Acts (fun language => place.executor.destroyed = false ∧
      language = place.executor.language) (place.call purpose).1 := by
  simp only [Place.call]
  split
  · exact (Acts.refl _).call (.refl _) (by simp)
  · rename_i standing
    have stands : place.executor.destroyed = false := by simpa using standing
    have asks := (place.registry.renews_acquire place.executor.language place.executor.launcher
      place.executor.timeout).mono fun language same => And.intro stands same
    split
    · rename_i registry handle acquired
      rw [acquired] at asks
      exact (acts_proceed _ _ handle purpose).call asks (by simp)
    · rename_i registry start acquired
      rw [acquired] at asks
      have joined (other : Nat) (same : CallPhase.acquiring start = .acquiring other) :
          place.executor.destroyed = false ∧ other < registry.starts.length := by
        cases same
        exact ⟨stands, begun.joined acquired⟩
      cases turned : turnAcquiring ⟨place.desk, registry, { place.executor with
          calls := place.executor.calls ++ [⟨purpose, .acquiring start⟩] }⟩
          place.executor.calls.length start purpose with
      | none => exact (Acts.refl _).call asks joined
      | some after => exact (acts_turnAcquiring turned).call asks joined

end Place

namespace Workshop

/-- Somebody asks the registry for the worker of a language: somebody without an executor,
or a caller of an executor that is not destroyed. -/
def Asks (shop : Workshop) : Occurrence → String → Prop
  | .acquire asked _ _, language => language = asked
  | .call executor _, language => ∃ found, shop.executors[executor]? = some found ∧
      found.destroyed = false ∧ language = found.language
  | _, _ => False

/-- No call of a destroyed executor waits for a start that the registry still keeps. -/
structure Severed (shop : Workshop) : Prop where
  begun : shop.registry.Begun
  awaited : ∀ (executor : Nat) (found : Executor) (start : Nat),
    shop.executors[executor]? = some found → found.Awaits start →
      start < shop.registry.starts.length
  unkept : ∀ (executor : Nat) (found : Executor) (start : Nat),
    shop.executors[executor]? = some found → found.destroyed = true → found.Awaits start →
      shop.registry.slot? found.language ≠ some (.starting start)

/-- What becomes of the executors and of what the registry keeps while the worker of none
but those languages is asked for. -/
structure Becomes (asked : String → Prop) (before after : Workshop) : Prop where
  renews : before.registry.Renews asked after.registry
  acts : ∀ (executor : Nat) (next : Executor), after.executors[executor]? = some next →
    ∃ found, before.executors[executor]? = some found ∧
      Place.Acts asked ⟨before.desk, before.registry, found⟩ ⟨after.desk, after.registry, next⟩

/-- What the destruction of an executor leaves to the others, whatever happens later. -/
structure Yields (shop : Workshop) (executor : Nat) (found : Executor)
    (later : List Occurrence) : Prop where
  /-- Nothing that its callers do changes what the registry keeps. -/
  untouched : ∀ occurrence : Occurrence, occurrence.executor? = some executor →
    (((shop.step (.destroy executor)).run later).step occurrence).registry.slots =
      ((shop.step (.destroy executor)).run later).registry.slots
  /-- The worker of its language is forgotten when it is destroyed for the first time. -/
  forgotten : found.destroyed = false →
    (shop.step (.destroy executor)).registry.slot? found.language = none
  /-- What is forgotten stays forgotten until somebody else asks for it. -/
  vacant : (shop.step (.destroy executor)).registry.slot? found.language = none →
    (∀ first occurrence rest, later = first ++ occurrence :: rest →
      ¬((shop.step (.destroy executor)).run first).Asks occurrence found.language) →
    ((shop.step (.destroy executor)).run later).registry.slot? found.language = none

variable {asked : String → Prop} {shop after : Workshop} {executor : Nat} {found : Executor}
  {language : String}

/-! ## Whatever happens -/

/-- Nothing happens to the executors. -/
theorem becomes_of_renews (renews : shop.registry.Renews asked after.registry)
    (same : after.executors = shop.executors) : shop.Becomes asked after where
  renews := renews
  acts _ next at_ :=
    ⟨next, same ▸ at_, .of_executor renews (.inl rfl)⟩

/-- Something happens to an executor, and to the others only as far as the registry goes. -/
theorem becomes_change {f : Place → Place}
    (acts : ∀ found, shop.executors[executor]? = some found →
      Place.Acts asked ⟨shop.desk, shop.registry, found⟩ (f ⟨shop.desk, shop.registry, found⟩)) :
    shop.Becomes asked (shop.change executor f) := by
  cases at_ : shop.executors[executor]? with
  | none =>
      have same : shop.change executor f = shop := by simp [change, place?, at_]
      rw [same]
      exact becomes_of_renews (.refl _) rfl
  | some found =>
      have own := acts found at_
      have renews : shop.registry.Renews asked (shop.change executor f).registry := by
        rw [registry_change_own at_]
        exact own.renews
      refine ⟨renews, fun other next atNext => ?_⟩
      by_cases same : executor = other
      · subst same
        rw [executors_change_own at_] at atNext
        cases atNext
        refine ⟨found, at_, ⟨renews, own.language, fun start awaits => ?_, fun destroyed => ?_⟩⟩
        · rw [registry_change_own at_]
          exact own.awaits start awaits
        · rw [registry_change_own at_]
          exact own.destroyed destroyed
      · rw [executors_change, if_neg same] at atNext
        exact ⟨next, atNext, .of_executor renews (.inl rfl)⟩

/-- Whatever happens, only those ask the registry who do. -/
theorem becomes_step (begun : shop.registry.Begun) (occurrence : Occurrence) :
    shop.Becomes (shop.Asks occurrence) (shop.step occurrence) := by
  cases occurrence with
  | call executor purpose =>
      refine becomes_change fun found at_ => ?_
      refine (Place.acts_call begun purpose).mono fun language isAsked => ?_
      exact ⟨found, at_, isAsked⟩
  | poll receiver executor call =>
      refine becomes_change fun found at_ => ?_
      cases turned : Place.turn receiver ⟨shop.desk, shop.registry, found⟩ call with
      | none => exact .refl _
      | some after => exact Place.acts_turn turned
  | abandon executor call => exact becomes_change fun found at_ => Place.acts_abandon _ call
  | destroy executor => exact becomes_change fun found at_ => Place.acts_destroy _
  | acquire language launcher timeout =>
      exact becomes_of_renews (Registry.renews_acquire ..) rfl
  | start number =>
      refine becomes_of_renews ?_ rfl
      cases turned : shop.registry.turnStart number with
      | none =>
          simp only [step, changeRegistry, turned, Option.getD_none]
          exact .refl _
      | some after =>
          simp only [step, changeRegistry, turned, Option.getD_some]
          exact Registry.renews_turnStart turned
  | collect language start =>
      refine becomes_of_renews ?_ rfl
      simp only [step, changeRegistry]
      split
      · exact .refl _
      · exact Registry.renews_collect ..
  | expire start => exact becomes_of_renews (Registry.renews_expire ..) rfl
  | shutdown language => exact becomes_of_renews (Registry.renews_shutdown ..) rfl
  | shutdownAll => exact becomes_of_renews (Registry.renews_shutdownAll ..) rfl
  | _ => exact becomes_of_renews (Registry.renews_of_slots rfl rfl) rfl

theorem Severed.becomes (severed : shop.Severed) (becomes : shop.Becomes asked after) :
    after.Severed where
  begun := becomes.renews.begun severed.begun
  awaited executor next start atNext awaits := by
    obtain ⟨found, at_, acts⟩ := becomes.acts executor next atNext
    rcases acts.awaits start awaits with was | ⟨-, isNew⟩
    · exact Nat.lt_of_lt_of_le (severed.awaited executor found start at_ was)
        becomes.renews.length
    · exact isNew
  unkept executor next start atNext destroyed awaits := by
    obtain ⟨found, at_, acts⟩ := becomes.acts executor next atNext
    rcases acts.destroyed destroyed with was | forgotten
    · have waited : found.Awaits start :=
        (acts.awaits start awaits).resolve_right fun isNew => by
          rw [show found.destroyed = true from was] at isNew
          exact absurd isNew.1 (by simp)
      have sameLanguage : next.language = found.language := acts.language
      rw [sameLanguage]
      exact becomes.renews.unkept (severed.awaited executor found start at_ waited)
        (severed.unkept executor found start at_ was waited)
    · rw [forgotten]
      simp

theorem severed_fresh (desk : Desk) (executors : List Executor) :
    (fresh desk executors).Severed := by
  have nobody (executor : Nat) (found : Executor) (start : Nat)
      (at_ : (fresh desk executors).executors[executor]? = some found) : ¬found.Awaits start := by
    rintro ⟨call, waits⟩
    simp only [fresh, List.getElem?_map, Option.map_eq_some_iff] at at_
    obtain ⟨own, -, rfl⟩ := at_
    simp [Executor.phase?] at waits
  constructor
  case begun =>
    intro language start kept
    simp [fresh, Registry.slot?] at kept
  case awaited =>
    intro executor found start at_ awaits
    exact absurd awaits (nobody executor found start at_)
  case unkept =>
    intro executor found start at_ _ awaits
    exact absurd awaits (nobody executor found start at_)

theorem Severed.step (severed : shop.Severed) (occurrence : Occurrence) :
    (shop.step occurrence).Severed :=
  severed.becomes (becomes_step severed.begun occurrence)

theorem Severed.run (severed : shop.Severed) (occurrences : List Occurrence) :
    (shop.run occurrences).Severed := by
  induction occurrences generalizing shop with
  | nil => exact severed
  | cons occurrence occurrences ih => exact ih (severed.step occurrence)

theorem IsDestroyed.run (destroyed : shop.IsDestroyed executor) (occurrences : List Occurrence) :
    (shop.run occurrences).IsDestroyed executor := by
  induction occurrences generalizing shop with
  | nil => exact destroyed
  | cons occurrence occurrences ih => exact ih (destroyed.step occurrence)

/-! ## What a destroyed executor does -/

/-- Whatever happens to a destroyed executor, what the registry keeps stays. -/
theorem Severed.slots_step (severed : shop.Severed) (destroyed : shop.IsDestroyed executor)
    {occurrence : Occurrence} (own : occurrence.executor? = some executor) :
    (shop.step occurrence).registry.slots = shop.registry.slots := by
  cases at_ : shop.executors[executor]? with
  | none => rw [step_of_getElem?_eq_none at_ own]
  | some found =>
      have isDestroyed := destroyed found at_
      have place : (⟨shop.desk, shop.registry, found⟩ : Place).executor.destroyed = true :=
        isDestroyed
      cases occurrence with
      | call changed purpose =>
          cases own
          rw [Workshop.step, registry_change_own at_, Place.call_of_destroyed place]
      | poll receiver changed call =>
          cases own
          rw [Workshop.step, registry_change_own at_]
          cases turned : Place.turn receiver ⟨shop.desk, shop.registry, found⟩ call with
          | none => rfl
          | some after =>
              exact Place.slots_turn (fun start awaits =>
                severed.unkept executor found start at_ isDestroyed awaits) turned
      | abandon changed call =>
          cases own
          rw [Workshop.step, registry_change_own at_]
          exact (Place.slots_abandon _ call).1
      | destroy changed =>
          cases own
          rw [Workshop.step, registry_change_own at_, Place.destroy_of_destroyed place]
      | _ => contradiction

/-- What is forgotten stays forgotten until somebody asks for it. -/
theorem Severed.slot?_run (severed : shop.Severed) {occurrences : List Occurrence}
    (unkept : shop.registry.slot? language = none)
    (unasked : ∀ first occurrence rest, occurrences = first ++ occurrence :: rest →
      ¬(shop.run first).Asks occurrence language) :
    (shop.run occurrences).registry.slot? language = none := by
  induction occurrences generalizing shop with
  | nil => exact unkept
  | cons occurrence occurrences ih =>
      have renews := (becomes_step severed.begun occurrence).renews
      apply ih (severed.step occurrence)
      · exact renews.vacant language (unasked [] occurrence occurrences rfl) unkept
      · rintro first next rest rfl
        exact unasked (occurrence :: first) next rest rfl

/-- Nothing is kept for the language of an executor that was just destroyed. -/
theorem slot?_destroy (at_ : shop.executors[executor]? = some found)
    (stands : found.destroyed = false) :
    (shop.step (.destroy executor)).registry.slot? found.language = none := by
  rw [step, registry_change_own at_]
  exact Place.slot?_destroy ⟨shop.desk, shop.registry, found⟩ stands

/-- An executor is destroyed at any time. -/
theorem yields_run (desk : Desk) (executors : List Executor) (earlier later : List Occurrence)
    (at_ : ((fresh desk executors).run earlier).executors[executor]? = some found) :
    ((fresh desk executors).run earlier).Yields executor found later := by
  have severed := ((severed_fresh desk executors).run earlier).step (.destroy executor)
  have destroyed := isDestroyed_destroy ((fresh desk executors).run earlier) executor
  exact {
    untouched := fun occurrence own =>
      (severed.run later).slots_step (destroyed.run later) own
    forgotten := slot?_destroy at_
    vacant := severed.slot?_run }

end Workshop

end Polyglot.Worker
