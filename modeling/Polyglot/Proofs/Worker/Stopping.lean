import Mathlib.Data.List.Induction
import Polyglot.Proofs.Worker.Relay
import Polyglot.Proofs.Worker.Sharing

/-!
# Shutting down

A shutdown stops the worker that is kept for a language.  A start that is under way is only
forgotten: callers who joined it go on waiting, and whoever of them has its outcome while the
worker is alive has a worker that the shutdown did not reach.  In no other way does a worker
outlive a shutdown.
-/

namespace Polyglot.Worker.Lobby

open Registry

/-- Whether an act shuts a language down. -/
def Act.Stops (language : String) : Act → Prop
  | .shutdown other => other = language
  | .shutdownAll => True
  | .acquire _ _ _ | .poll _ | .leave _ | .expire _ | .move _ _ => False

/-- Whether an act hands a worker of a language, which is alive, to a caller. -/
def HandsOut (lobby : Lobby) (act : Act) (language : String) (handle : Nat) : Prop :=
  ∃ (number : Nat) (caller : Caller), (lobby.step act).callers[number]? = some caller ∧
    lobby.callers[number]? ≠ some caller ∧ caller.language = language ∧
    caller.standing = .returned (.ok handle) ∧ (lobby.step act).registry.isAlive handle = true

/-- Whether no worker whose start began before a shutdown of its language is handed out alive
after it. -/
def Covers (acts : List Act) (language : String) : Prop :=
  ∀ before stop middle act rest start handle,
    acts = before ++ stop :: (middle ++ act :: rest) → stop.Stops language →
    start < (Lobby.run {} before).registry.starts.length →
    ((Lobby.run {} (before ++ stop :: middle)).step act).registry.outcome? start =
      some (.ok handle) →
    ¬(Lobby.run {} (before ++ stop :: middle)).HandsOut act language handle

/-- Whether no two workers of a language were handed out that are alive at the same time. -/
def KeepsOne (acts : List Act) (language : String) : Prop :=
  ∀ before rest, acts = before ++ rest →
    ∀ (number other : Nat) (caller another : Caller) (handle second : Nat),
      (Lobby.run {} before).callers[number]? = some caller → caller.language = language →
      caller.standing = .returned (.ok handle) →
      (Lobby.run {} before).registry.isAlive handle = true →
      (Lobby.run {} before).callers[other]? = some another → another.language = language →
      another.standing = .returned (.ok second) →
      (Lobby.run {} before).registry.isAlive second = true → handle = second

/-- Whether a shutdown meets a start of the language that is under way, and a caller who had
joined it looks when it has come to a worker that is alive. -/
def Outlives (acts : List Act) (language : String) : Prop :=
  ∃ before stop middle rest number start handle,
    acts = before ++ stop :: (middle ++ .poll number :: rest) ∧ stop.Stops language ∧
    (Lobby.run {} before).registry.slot? language = some (.starting start) ∧
    (Lobby.run {} before).callers[number]? = some ⟨language, .joined start, .waiting⟩ ∧
    (Lobby.run {} (before ++ stop :: middle)).callers[number]? =
      some ⟨language, .joined start, .waiting⟩ ∧
    (Lobby.run {} (before ++ stop :: middle)).registry.outcome? start = some (.ok handle) ∧
    (Lobby.run {} (before ++ stop :: middle)).registry.isAlive handle = true

variable {lobby : Lobby} {act stop : Act} {language : String} {number start handle bound : Nat}
  {caller : Caller}

/-! ## Workers that are stopped -/

section Dead

theorem isAlive_eq_false_of_succeeds {before after : Registry} {found : Handle}
    (succeeds : before.Succeeds after) (isThere : before.handles[handle]? = some found)
    (isDead : before.isAlive handle = false) : after.isAlive handle = false := by
  cases isAlive : after.isAlive handle with
  | false => rfl
  | true => rw [succeeds.isAlive isThere isAlive] at isDead; contradiction

theorem isAlive_stop (registry : Registry) (handle : Nat) :
    (registry.stop (.ready handle)).isAlive handle = false := by
  simp only [stop, Registry.isAlive, handles_modifyHandle, if_true]
  cases registry.handles[handle]? with
  | none => rfl
  | some found => simp [Handle.isAlive, Handle.alive_terminate]

/-- Stopping what is kept for several languages stops each worker among it. -/
theorem isAlive_foldl_stop (slots : List (String × Slot)) {registry : Registry} {found : Handle}
    (member : .ready handle ∈ slots.map (·.2))
    (isThere : registry.handles[handle]? = some found) :
    (slots.foldl (fun registry entry => registry.stop entry.2) registry).isAlive handle =
      false := by
  have stays (slots : List (String × Slot)) {registry : Registry} {found : Handle}
      (isThere : registry.handles[handle]? = some found)
      (isDead : registry.isAlive handle = false) :
      (slots.foldl (fun registry entry => registry.stop entry.2) registry).isAlive handle =
        false := by
    induction slots generalizing registry found with
    | nil => exact isDead
    | cons entry slots ih =>
        have succeeds := succeeds_stop registry entry.2
        obtain ⟨next, isNext, -⟩ := succeeds.handles handle found isThere
        exact ih isNext (isAlive_eq_false_of_succeeds succeeds isThere isDead)
  induction slots generalizing registry found with
  | nil => contradiction
  | cons entry slots ih =>
      obtain ⟨next, isNext, -⟩ := (succeeds_stop registry entry.2).handles handle found isThere
      rcases List.mem_cons.mp member with same | later
      · have isReady : entry.2 = .ready handle := same.symm
        rw [List.foldl_cons]
        refine stays slots isNext ?_
        rw [isReady]
        exact isAlive_stop registry handle
      · exact ih later isNext

/-- A shutdown stops the worker that is kept. -/
theorem isAlive_of_stops (tidy : lobby.registry.Tidy) (stops : act.Stops language)
    (ready : lobby.registry.slot? language = some (.ready handle)) :
    (lobby.step act).registry.isAlive handle = false := by
  cases act with
  | shutdown other =>
      obtain rfl : other = language := stops
      simp only [step, changeRegistry, shutdown, ready]
      exact isAlive_stop _ handle
  | shutdownAll =>
      obtain ⟨number, start, found, -, settled⟩ := tidy.ready language handle ready
      obtain ⟨worker, isWorker, -⟩ := tidy.worker number start handle found (by rw [settled]; rfl)
      refine isAlive_foldl_stop lobby.registry.slots ?_ isWorker
      obtain ⟨entry, isEntry, isSlot⟩ := Option.map_eq_some_iff.mp ready
      exact List.mem_map.mpr ⟨entry, List.mem_of_find?_eq_some isEntry, isSlot⟩
  | acquire other launcher timeout => exact stops.elim
  | poll number => exact stops.elim
  | leave number => exact stops.elim
  | expire number => exact stops.elim
  | move handle move => exact stops.elim

end Dead

/-! ## What one act does -/

section Steps

/-- A start that is there was there before, or somebody has just come for it. -/
theorem start_step {next : Start} (found : (lobby.step act).registry.starts[start]? = some next) :
    (∃ before : Start, lobby.registry.starts[start]? = some before ∧
      before.language = next.language) ∨
    (start = lobby.registry.starts.length ∧
      (lobby.step act).registry.slot? next.language = some (.starting start)) := by
  by_cases isOld : start < lobby.registry.starts.length
  · obtain ⟨after, isAfter, advances⟩ :=
      (lobby.succeeds_step act).starts start _ (List.getElem?_eq_getElem isOld)
    rw [found] at isAfter
    cases isAfter
    exact .inl ⟨_, List.getElem?_eq_getElem isOld, advances.language.symm⟩
  · have inside := (List.getElem?_eq_some_iff.mp found).1
    rcases lobby.length_starts_step act with same | ⟨other, launcher, timeout, rfl, isVacant⟩
    · omega
    · right
      rw [step, acquire_vacant isVacant] at found inside ⊢
      simp only [List.length_append, List.length_singleton] at inside
      obtain rfl : start = lobby.registry.starts.length := by omega
      rw [List.getElem?_concat_length] at found
      cases found
      have slots := slot?_setSlot lobby.registry other other
        (.starting lobby.registry.starts.length)
      rw [if_pos rfl] at slots
      exact ⟨rfl, slots⟩

/-- A caller stood where it stands, or has gone away, or has just come, or has just looked. -/
theorem callers_step (found : (lobby.step act).callers[number]? = some caller) :
    lobby.callers[number]? = some caller ∨ caller.standing = .gone ∨
    (∃ handle, lobby.registry.slot? caller.language = some (.ready handle) ∧
      caller = ⟨caller.language, .held handle, .returned (.ok handle)⟩) ∨
    (∃ start, caller = ⟨caller.language, .joined start, .waiting⟩ ∧
      (lobby.registry.slot? caller.language = some (.starting start) ∨
        start = lobby.registry.starts.length)) ∨
    ∃ start outcome, act = .poll number ∧
      lobby.callers[number]? = some ⟨caller.language, .joined start, .waiting⟩ ∧
      lobby.registry.outcome? start = some outcome ∧
      caller = ⟨caller.language, .joined start, .returned outcome⟩ := by
  cases act with
  | acquire language launcher timeout =>
      rw [step] at found
      rcases lobby.registry.vacant_or_kept language with isVacant | ⟨start, pending⟩ |
        ⟨handle, ready, isAlive⟩
      · rw [acquire_vacant isVacant] at found
        rcases getElem?_concat found with wasThere | rfl
        · exact .inl wasThere
        · exact .inr (.inr (.inr (.inl ⟨_, rfl, .inr rfl⟩)))
      · rw [acquire_pending pending] at found
        rcases getElem?_concat found with wasThere | rfl
        · exact .inl wasThere
        · exact .inr (.inr (.inr (.inl ⟨start, rfl, .inl pending⟩)))
      · rw [acquire_alive ready isAlive] at found
        rcases getElem?_concat found with wasThere | rfl
        · exact .inl wasThere
        · exact .inr (.inr (.inl ⟨handle, ready, rfl⟩))
  | poll other =>
      rw [step] at found
      rcases lobby.poll_cases other with same | ⟨language, start, isWaiting, ⟨-, same⟩ | settled⟩
      · rw [same] at found
        exact .inl found
      · rw [same] at found
        exact .inl found
      · obtain ⟨outcome, isOutcome, same⟩ := settled
        rw [same] at found
        rcases getElem?_setStanding found with stays | ⟨before, rfl, isBefore, rfl⟩
        · exact .inl stays
        · have wasWaiting : lobby.callers[number]? = some before := isBefore
          rw [isWaiting] at wasWaiting
          cases wasWaiting
          exact .inr (.inr (.inr (.inr ⟨start, outcome, rfl, isWaiting, isOutcome, rfl⟩)))
  | leave other =>
      simp only [step, leave] at found
      split at found
      · rcases getElem?_setStanding found with stays | ⟨before, -, -, rfl⟩
        · exact .inl stays
        · exact .inr (.inl rfl)
      · exact .inl found
  | expire start => exact .inl found
  | shutdown language => exact .inl found
  | shutdownAll => exact .inl found
  | move handle move => exact .inl found

end Steps

/-! ## After a shutdown -/

section Renewed

theorem slot?_of_stops (stops : act.Stops language) :
    (lobby.step act).registry.slot? language = none := by
  cases act with
  | shutdown other =>
      obtain rfl : other = language := stops
      have slots := slot?_shutdown lobby.registry other other
      rwa [if_pos rfl] at slots
  | shutdownAll => exact slot?_shutdownAll ..
  | acquire other launcher timeout => exact stops.elim
  | poll number => exact stops.elim
  | leave number => exact stops.elim
  | expire number => exact stops.elim
  | move handle move => exact stops.elim

theorem callers_of_stops (stops : act.Stops language) :
    (lobby.step act).callers = lobby.callers := by
  cases act with
  | shutdown other => rfl
  | shutdownAll => rfl
  | acquire other launcher timeout => exact stops.elim
  | poll number => exact stops.elim
  | leave number => exact stops.elim
  | expire number => exact stops.elim
  | move handle move => exact stops.elim

/-- A lobby some time after a shutdown of a language: nothing that is kept for the language is
from before, and whoever waits for a start from before waited for it then. -/
structure Renewed (language : String) (before lobby : Lobby) : Prop where
  starts : before.registry.starts.length ≤ lobby.registry.starts.length
  starting : ∀ start, lobby.registry.slot? language = some (.starting start) →
    before.registry.starts.length ≤ start
  ready : ∀ handle, lobby.registry.slot? language = some (.ready handle) →
    ∃ start, before.registry.starts.length ≤ start ∧
      lobby.registry.outcome? start = some (.ok handle)
  waiting : ∀ (number start : Nat),
    lobby.callers[number]? = some ⟨language, .joined start, .waiting⟩ →
    before.registry.starts.length ≤ start ∨
      before.callers[number]? = some ⟨language, .joined start, .waiting⟩

theorem renewed_of_stops (stops : stop.Stops language) :
    Renewed language lobby (lobby.step stop) where
  starts := (lobby.succeeds_step stop).length_starts
  starting start kept := by
    rw [slot?_of_stops stops] at kept
    contradiction
  ready handle kept := by
    rw [slot?_of_stops stops] at kept
    contradiction
  waiting number start found := by
    rw [callers_of_stops stops] at found
    exact .inr found

theorem Renewed.step {before : Lobby} (renewed : Renewed language before lobby) (act : Act) :
    Renewed language before (lobby.step act) where
  starts := Nat.le_trans renewed.starts (lobby.succeeds_step act).length_starts
  starting start kept := by
    rcases lobby.slot?_step act language with same | ⟨_, _, _, _, begun⟩ |
      ⟨_, _, outcome, _, _, _, _, collected⟩ | ⟨_, forgotten⟩
    · exact renewed.starting start (same ▸ kept)
    · rw [begun] at kept
      cases kept
      exact renewed.starts
    · rw [collected] at kept
      cases outcome <;> cases kept
    · rw [forgotten] at kept
      contradiction
  ready handle kept := by
    have succeeds := lobby.succeeds_step act
    rcases lobby.slot?_step act language with same | ⟨_, _, _, _, begun⟩ |
      ⟨_, start, outcome, _, _, settled, pending, collected⟩ | ⟨_, forgotten⟩
    · obtain ⟨start, isLater, settled⟩ := renewed.ready handle (same ▸ kept)
      exact ⟨start, isLater, succeeds.outcome? settled⟩
    · rw [begun] at kept
      cases kept
    · rw [collected] at kept
      cases outcome with
      | ok worker =>
          cases kept
          exact ⟨start, renewed.starting start pending, succeeds.outcome? settled⟩
      | error cause => cases kept
    · rw [forgotten] at kept
      contradiction
  waiting number start found := by
    rcases callers_step found with wasThere | isGone | ⟨handle, -, isHeld⟩ |
      ⟨joined, isNew, pending | rfl⟩ | ⟨joined, outcome, -, -, -, hasReturned⟩
    · exact renewed.waiting number start wasThere
    · contradiction
    · cases isHeld
    · cases isNew
      exact .inl (renewed.starting start pending)
    · cases isNew
      exact .inl renewed.starts
    · cases hasReturned

theorem renewed_run (stops : stop.Stops language) (before middle : List Act) :
    Renewed language (Lobby.run {} before) (Lobby.run {} (before ++ stop :: middle)) := by
  have kept (middle : List Act) {lobby : Lobby}
      (renewed : Renewed language (Lobby.run {} before) lobby) :
      Renewed language (Lobby.run {} before) (lobby.run middle) := by
    induction middle generalizing lobby with
    | nil => exact renewed
    | cons act middle ih => exact ih (renewed.step act)
  rw [run_append, run_cons]
  exact kept middle (renewed_of_stops stops)

end Renewed

/-! ## What becomes of a start -/

section Fate

/-- Whether a shutdown of a language has met a start of it that was under way. -/
def Orphans (acts : List Act) (language : String) (start : Nat) : Prop :=
  ∃ before stop middle, acts = before ++ stop :: middle ∧ stop.Stops language ∧
    (Lobby.run {} before).registry.slot? language = some (.starting start)

theorem Orphans.concat {acts : List Act} (orphans : Orphans acts language start) (act : Act) :
    Orphans (acts ++ [act]) language start := by
  obtain ⟨before, stop, middle, rfl, stops, pending⟩ := orphans
  exact ⟨before, stop, middle ++ [act], by simp, stops, pending⟩

theorem run_concat (lobby : Lobby) (acts : List Act) (act : Act) :
    lobby.run (acts ++ [act]) = (lobby.run acts).step act := by
  rw [run_append, run_cons, run_nil]

theorem stops_of_eq (isStop : act = .shutdown language ∨ act = .shutdownAll) :
    act.Stops language := by
  rcases isStop with rfl | rfl
  · rfl
  · trivial

theorem handle_of_outcome? {registry : Registry} (tidy : registry.Tidy)
    (settled : registry.outcome? start = some (.ok handle)) :
    ∃ worker : Handle, registry.handles[handle]? = some worker := by
  obtain ⟨found, isFound, progress⟩ := outcome?_eq_some.mp settled
  obtain ⟨worker, isWorker, -⟩ := tidy.worker start found handle isFound (by rw [progress]; rfl)
  exact ⟨worker, isWorker⟩

/-- Two starts never come to the same worker. -/
theorem start_of_outcome? {registry : Registry} {other : Nat} (tidy : registry.Tidy)
    (settled : registry.outcome? start = some (.ok handle))
    (isOther : registry.outcome? other = some (.ok handle)) : start = other := by
  obtain ⟨found, isFound, progress⟩ := outcome?_eq_some.mp settled
  obtain ⟨second, isSecond, same⟩ := outcome?_eq_some.mp isOther
  exact tidy.apart start other found second handle isFound isSecond (by rw [progress]; rfl)
    (by rw [same]; rfl)

/-- A start is what is kept for its language, or has failed, or has come to the worker that is
kept or to one that is dead, unless a shutdown has met it. -/
theorem fate_of_start (acts : List Act) {found : Start}
    (isFound : (Lobby.run {} acts).registry.starts[start]? = some found) :
    (Lobby.run {} acts).registry.slot? found.language = some (.starting start) ∨
      (∃ cause, (Lobby.run {} acts).registry.outcome? start = some (.error cause)) ∨
      (∃ handle, (Lobby.run {} acts).registry.outcome? start = some (.ok handle) ∧
        ((Lobby.run {} acts).registry.slot? found.language = some (.ready handle) ∨
          (Lobby.run {} acts).registry.isAlive handle = false)) ∨
      Orphans acts found.language start := by
  induction acts using List.reverseRecOn generalizing found with
  | nil => simp at isFound
  | append_singleton acts act ih =>
      have fair := fair_run acts
      have succeeds := (Lobby.run {} acts).succeeds_step act
      rw [run_concat] at isFound ⊢
      rcases start_step isFound with ⟨before, isBefore, sameLanguage⟩ | ⟨-, isNew⟩
      · have changes := (Lobby.run {} acts).slot?_step act found.language
        have fate := ih isBefore
        rw [sameLanguage] at fate
        rcases fate with pending | ⟨cause, failed⟩ | ⟨handle, settled, kept⟩ | orphans
        · rcases changes with same | ⟨_, _, _, isVacant, _⟩ |
            ⟨_, joined, outcome, _, _, settled, waits, collected⟩ | ⟨isStop, _⟩
          · exact .inl (same.trans pending)
          · simp [IsVacant, pending] at isVacant
          · rw [pending] at waits
            cases waits
            cases outcome with
            | ok handle =>
                exact .inr (.inr (.inl ⟨handle, succeeds.outcome? settled, .inl collected⟩))
            | error cause => exact .inr (.inl ⟨cause, succeeds.outcome? settled⟩)
          · exact .inr (.inr (.inr ⟨acts, act, [], rfl, stops_of_eq isStop, pending⟩))
        · exact .inr (.inl ⟨cause, succeeds.outcome? failed⟩)
        · refine .inr (.inr (.inl ⟨handle, succeeds.outcome? settled, ?_⟩))
          obtain ⟨worker, isWorker⟩ := handle_of_outcome? fair.tidy settled
          rcases kept with ready | isDead
          · rcases changes with same | ⟨_, _, _, isVacant, _⟩ | ⟨_, _, _, _, _, _, waits, _⟩ |
              ⟨isStop, _⟩
            · exact .inl (same.trans ready)
            · simp only [IsVacant, ready] at isVacant
              exact .inr (isAlive_eq_false_of_succeeds succeeds isWorker isVacant)
            · rw [ready] at waits
              cases waits
            · exact .inr (isAlive_of_stops fair.tidy (stops_of_eq isStop) ready)
          · exact .inr (isAlive_eq_false_of_succeeds succeeds isWorker isDead)
        · exact .inr (.inr (.inr (orphans.concat act)))
      · exact .inl isNew

end Fate

/-! ## Workers that outlive a shutdown -/

section Outlive

variable {acts : List Act}

/-- The worker that is kept is kept for as long as it is alive. -/
theorem ready_step (tidy : lobby.registry.Tidy)
    (ready : lobby.registry.slot? language = some (.ready handle))
    (isAlive : (lobby.step act).registry.isAlive handle = true) :
    (lobby.step act).registry.slot? language = some (.ready handle) := by
  obtain ⟨start, found, isFound, -, progress⟩ := tidy.ready language handle ready
  obtain ⟨worker, isWorker⟩ :=
    handle_of_outcome? tidy (outcome?_eq_some.mpr ⟨found, isFound, progress⟩)
  have wasAlive := (lobby.succeeds_step act).isAlive isWorker isAlive
  rcases lobby.slot?_step act language with same | ⟨_, _, _, isVacant, _⟩ |
    ⟨_, _, _, _, _, _, waits, _⟩ | ⟨isStop, _⟩
  · rw [same, ready]
  · simp [IsVacant, ready, wasAlive] at isVacant
  · rw [ready] at waits
    cases waits
  · rw [isAlive_of_stops tidy (stops_of_eq isStop) ready] at isAlive
    contradiction

theorem Outlives.append (outlives : Outlives acts language) (more : List Act) :
    Outlives (acts ++ more) language := by
  obtain ⟨before, stop, middle, rest, number, start, handle, rfl, outlives⟩ := outlives
  exact ⟨before, stop, middle, rest ++ more, number, start, handle, by simp, outlives⟩

/-- A caller who looks when its start, which a shutdown has met, has come to a worker that is alive
has a worker that outlives the shutdown. -/
theorem Orphans.outlives (orphans : Orphans acts language start)
    (isWaiting : (Lobby.run {} acts).callers[number]? = some ⟨language, .joined start, .waiting⟩)
    (settled : (Lobby.run {} acts).registry.outcome? start = some (.ok handle))
    (isAlive : (Lobby.run {} acts).registry.isAlive handle = true) (rest : List Act) :
    Outlives (acts ++ .poll number :: rest) language := by
  obtain ⟨before, stop, middle, rfl, stops, pending⟩ := orphans
  obtain ⟨found, isFound, -⟩ := (fair_run before).tidy.starting language start pending
  have isOld := (List.getElem?_eq_some_iff.mp isFound).1
  have wasWaiting := ((renewed_run stops before middle).waiting number start isWaiting).resolve_left
    (Nat.not_le_of_lt isOld)
  exact ⟨before, stop, middle, rest, number, start, handle, by simp, stops, pending, wasWaiting,
    isWaiting, settled, isAlive⟩

/-- If no worker outlives a shutdown, one that was handed out and is alive is the one that is
kept. -/
theorem ready_of_returned (acts : List Act) (never : ¬Outlives acts language) {caller : Caller}
    (found : (Lobby.run {} acts).callers[number]? = some caller)
    (isLanguage : caller.language = language)
    (returned : caller.standing = .returned (.ok handle))
    (isAlive : (Lobby.run {} acts).registry.isAlive handle = true) :
    (Lobby.run {} acts).registry.slot? language = some (.ready handle) := by
  induction acts using List.reverseRecOn generalizing caller with
  | nil => simp at found
  | append_singleton acts act ih =>
      have notYet : ¬Outlives acts language := fun outlives => never (outlives.append [act])
      have fair := fair_run acts
      have succeeds := (Lobby.run {} acts).succeeds_step act
      rw [run_concat] at found isAlive ⊢
      rcases callers_step found with wasThere | isGone | ⟨held, ready, isHeld⟩ |
        ⟨joined, isNew, -⟩ | ⟨start, outcome, rfl, wasWaiting, settled, hasReturned⟩
      · obtain ⟨start, begun, isBegun, -, progress⟩ :=
          fair.held number caller handle wasThere returned
        obtain ⟨worker, isWorker⟩ :=
          handle_of_outcome? fair.tidy (outcome?_eq_some.mpr ⟨begun, isBegun, progress⟩)
        have wasAlive := succeeds.isAlive isWorker isAlive
        exact ready_step fair.tidy (ih notYet wasThere isLanguage returned wasAlive) isAlive
      · rw [isGone] at returned
        contradiction
      · rw [isHeld] at returned
        cases returned
        exact ready_step fair.tidy (isLanguage ▸ ready) isAlive
      · rw [isNew] at returned
        contradiction
      · rw [hasReturned] at returned
        cases returned
        rw [isLanguage] at wasWaiting
        obtain ⟨worker, isWorker⟩ := handle_of_outcome? fair.tidy settled
        have wasAlive := succeeds.isAlive isWorker isAlive
        obtain ⟨begun, isBegun, sameLanguage⟩ := fair.joined number _ start wasWaiting rfl
        have fate := fate_of_start acts isBegun
        rw [sameLanguage] at fate
        rcases fate with pending | ⟨cause, failed⟩ | ⟨other, isOther, ready | isDead⟩ | orphans
        · exact (fair.shares.first number language start _ wasWaiting settled pending).1
        · rw [settled] at failed
          cases failed
        · rw [settled] at isOther
          cases isOther
          exact ready_step fair.tidy ready isAlive
        · rw [settled] at isOther
          cases isOther
          rw [wasAlive] at isDead
          contradiction
        · exact absurd (orphans.outlives wasWaiting settled wasAlive []) never

/-- A worker that was handed out after a shutdown of its language, though its start began before,
outlived a shutdown. -/
theorem outlives_of_handsOut {before middle : List Act} (stops : stop.Stops language)
    (isOld : start < (Lobby.run {} before).registry.starts.length)
    (settled : ((Lobby.run {} (before ++ stop :: middle)).step act).registry.outcome? start =
      some (.ok handle))
    (handsOut : (Lobby.run {} (before ++ stop :: middle)).HandsOut act language handle)
    (rest : List Act) : Outlives (before ++ stop :: (middle ++ act :: rest)) language := by
  obtain ⟨number, caller, found, isNew, isLanguage, returned, isAlive⟩ := handsOut
  have renewed := renewed_run stops before middle
  have fair := fair_run (before ++ stop :: middle)
  have succeeds := (Lobby.run {} (before ++ stop :: middle)).succeeds_step act
  -- What is kept after the shutdown came of a later start.
  have notKept (ready : (Lobby.run {} (before ++ stop :: middle)).registry.slot? language =
      some (.ready handle)) : False := by
    obtain ⟨later, isLater, isLaterOutcome⟩ := renewed.ready handle ready
    have same := start_of_outcome? (fair.step act).tidy settled (succeeds.outcome? isLaterOutcome)
    omega
  rcases callers_step found with wasThere | isGone | ⟨held, ready, isHeld⟩ |
    ⟨joined, isWaiting, -⟩ | ⟨joined, outcome, rfl, wasWaiting, wasSettled, hasReturned⟩
  · exact absurd wasThere isNew
  · rw [isGone] at returned
    contradiction
  · rw [isHeld] at returned
    cases returned
    exact (notKept (isLanguage ▸ ready)).elim
  · rw [isWaiting] at returned
    contradiction
  · rw [hasReturned] at returned
    cases returned
    rw [isLanguage] at wasWaiting
    obtain rfl : start = joined :=
      start_of_outcome? (fair.step _).tidy settled (succeeds.outcome? wasSettled)
    obtain ⟨worker, isWorker⟩ := handle_of_outcome? fair.tidy wasSettled
    have wasAlive := succeeds.isAlive isWorker isAlive
    obtain ⟨begun, isBegun, sameLanguage⟩ := fair.joined number _ start wasWaiting rfl
    have fate := fate_of_start _ isBegun
    rw [sameLanguage] at fate
    rcases fate with pending | ⟨cause, failed⟩ | ⟨other, isOther, ready | isDead⟩ | orphans
    · have isLater := renewed.starting start pending
      omega
    · rw [wasSettled] at failed
      cases failed
    · rw [wasSettled] at isOther
      cases isOther
      exact (notKept ready).elim
    · rw [wasSettled] at isOther
      cases isOther
      rw [wasAlive] at isDead
      contradiction
    · have outlives := orphans.outlives wasWaiting wasSettled wasAlive rest
      rwa [List.append_assoc, List.cons_append] at outlives

/-- A caller who looks when its start has come to a worker that is alive is handed the worker. -/
theorem handsOut_poll
    (isWaiting : lobby.callers[number]? = some ⟨language, .joined start, .waiting⟩)
    (settled : lobby.registry.outcome? start = some (.ok handle))
    (isAlive : lobby.registry.isAlive handle = true) :
    lobby.HandsOut (.poll number) language handle := by
  refine ⟨number, _, callers_poll isWaiting settled, ?_, rfl, rfl, ?_⟩
  · rw [isWaiting]
    simp
  · rw [step, poll_of_outcome? isWaiting settled]
    simpa [setStanding, Registry.isAlive] using isAlive

end Outlive

end Polyglot.Worker.Lobby
