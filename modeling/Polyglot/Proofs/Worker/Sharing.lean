import Polyglot.Proofs.Worker.Lobby
import Polyglot.Proofs.Worker.Upkeep

/-!
# Shared starts

Callers of a registry share the start of a worker: whoever comes while it is under way joins it,
everybody who joined it gets its outcome, and only the first to have it writes it down, and only
if the start is still what is kept for the language.
-/

namespace Polyglot.Worker.Lobby

open Registry

/-- Whether an act takes what is kept for a language away or begins anew. -/
def Act.Resets (language : String) : Act → Prop
  | .acquire other _ _ | .shutdown other => other = language
  | .shutdownAll => True
  | .poll _ | .leave _ | .expire _ | .move _ _ => False

/-- Whether an act has to do with a language. -/
def Act.Concerns (lobby : Lobby) (language : String) : Act → Prop
  | .acquire other _ _ | .shutdown other => other = language
  | .shutdownAll => True
  | .poll number | .leave number =>
    ∃ caller : Caller, lobby.callers[number]? = some caller ∧ caller.language = language
  | .expire number =>
    ∃ start : Start, lobby.registry.starts[number]? = some start ∧ start.language = language
  | .move number _ =>
    ∃ handle : Handle, lobby.registry.handles[number]? = some handle ∧ handle.language = language


variable {lobby : Lobby} {act : Act} {language : String} {number start handle : Nat}

/-! ## Steps -/

section Steps

/-- What is kept for a language changes only when somebody asks for its worker and there is none,
when a caller has the outcome of the start that is kept, and when the language is shut down. -/
theorem slot?_step (lobby : Lobby) (act : Act) (language : String) :
    (lobby.step act).registry.slot? language = lobby.registry.slot? language ∨
      (∃ launcher timeout, act = .acquire language launcher timeout ∧
        lobby.registry.IsVacant language ∧
        (lobby.step act).registry.slot? language =
          some (.starting lobby.registry.starts.length)) ∨
      (∃ number start outcome, act = .poll number ∧
        lobby.callers[number]? = some ⟨language, .joined start, .waiting⟩ ∧
        lobby.registry.outcome? start = some outcome ∧
        lobby.registry.slot? language = some (.starting start) ∧
        (lobby.step act).registry.slot? language = some (kept outcome)) ∨
      ((act = .shutdown language ∨ act = .shutdownAll) ∧
        (lobby.step act).registry.slot? language = none) := by
  cases act with
  | acquire other launcher timeout =>
      simp only [step, registry_acquire]
      rcases lobby.registry.vacant_or_kept other with isVacant | ⟨number, pending⟩ |
        ⟨handle, ready, isAlive⟩
      · rw [acquire_of_vacant isVacant]
        have slots := slot?_setSlot lobby.registry other language
          (.starting lobby.registry.starts.length)
        by_cases same : language = other
        · subst same
          rw [if_pos rfl] at slots
          exact .inr (.inl ⟨launcher, timeout, rfl, isVacant, slots⟩)
        · rw [if_neg same] at slots
          exact .inl slots
      · rw [acquire_of_starting pending]
        exact .inl rfl
      · rw [acquire_of_ready ready isAlive]
        exact .inl rfl
  | poll number =>
      simp only [step]
      rcases lobby.poll_cases number with same | ⟨other, start, found, pending | settled⟩
      · exact .inl (by rw [same])
      · obtain ⟨-, same⟩ := pending
        rw [same]
        cases turned : lobby.registry.turnStart start with
        | none => exact .inl rfl
        | some after => exact .inl (slot?_turnStart turned language)
      · obtain ⟨outcome, isOutcome, same⟩ := settled
        have slots := slot?_collect lobby.registry other language start outcome
        rw [same]
        by_cases waits : language = other ∧ lobby.registry.slot? other = some (.starting start)
        · rw [if_pos waits] at slots
          obtain ⟨rfl, waits⟩ := waits
          exact .inr (.inr (.inl ⟨number, start, outcome, rfl, found, isOutcome, waits, slots⟩))
        · rw [if_neg waits] at slots
          exact .inl slots
  | leave number => exact .inl (by rw [step, registry_leave])
  | expire number => exact .inl (slot?_expire ..)
  | shutdown other =>
      have slots := slot?_shutdown lobby.registry other language
      by_cases same : language = other
      · subst same
        rw [if_pos rfl] at slots
        exact .inr (.inr (.inr ⟨.inl rfl, slots⟩))
      · rw [if_neg same] at slots
        exact .inl slots
  | shutdownAll => exact .inr (.inr (.inr ⟨.inr rfl, slot?_shutdownAll ..⟩))
  | move handle move => exact .inl rfl

theorem succeeds_step (lobby : Lobby) (act : Act) :
    lobby.registry.Succeeds (lobby.step act).registry := by
  cases act with
  | acquire language launcher timeout => exact succeeds_acquire ..
  | poll number =>
      simp only [step]
      rcases lobby.poll_cases number with same | ⟨language, start, -, ⟨-, same⟩ | settled⟩
      · rw [same]
        exact .refl _
      · rw [same]
        cases turned : lobby.registry.turnStart start with
        | none => exact .refl _
        | some after => exact succeeds_turnStart turned
      · obtain ⟨outcome, -, same⟩ := settled
        rw [same]
        exact succeeds_collect ..
  | leave number =>
      rw [step, registry_leave]
      exact .refl _
  | expire number => exact succeeds_expire ..
  | shutdown language => exact succeeds_shutdown ..
  | shutdownAll => exact succeeds_shutdownAll _
  | move handle move => exact succeeds_modifyHandle fun found _ => found.wanes_move move

theorem succeeds_run (lobby : Lobby) (acts : List Act) :
    lobby.registry.Succeeds (lobby.run acts).registry := by
  induction acts generalizing lobby with
  | nil => exact .refl _
  | cons act acts ih => exact (lobby.succeeds_step act).trans (ih _)

/-- A new start begins only for a caller of a language whose worker there is none of. -/
theorem length_starts_step (lobby : Lobby) (act : Act) :
    (lobby.step act).registry.starts.length = lobby.registry.starts.length ∨
      ∃ language launcher timeout, act = .acquire language launcher timeout ∧
        lobby.registry.IsVacant language := by
  cases act with
  | acquire language launcher timeout =>
      rcases lobby.registry.vacant_or_kept language with isVacant | ⟨number, pending⟩ |
        ⟨handle, ready, isAlive⟩
      · exact .inr ⟨language, launcher, timeout, rfl, isVacant⟩
      · exact .inl (by rw [step, registry_acquire, acquire_of_starting pending])
      · exact .inl (by rw [step, registry_acquire, acquire_of_ready ready isAlive])
  | poll number =>
      left
      rw [step]
      rcases lobby.poll_cases number with same | ⟨language, start, -, ⟨-, same⟩ | settled⟩
      · rw [same]
      · rw [same]
        cases turned : lobby.registry.turnStart start with
        | none => rfl
        | some after => exact length_turnStart turned
      · obtain ⟨outcome, -, same⟩ := settled
        rw [same]
        exact congrArg List.length (starts_collect ..)
  | leave number => exact .inl (by rw [step, registry_leave])
  | expire number => exact .inl (length_expire ..)
  | shutdown language => exact .inl (congrArg List.length (starts_shutdown ..))
  | shutdownAll => exact .inl (congrArg List.length (starts_shutdownAll _))
  | move handle move => exact .inl rfl

end Steps

/-! ## Callers -/

/-- A lobby where every caller joined a start of its own language, and has the outcome of that
start or a worker of its language. -/
structure Fair (lobby : Lobby) : Prop where
  tidy : lobby.registry.Tidy
  joined : ∀ (number : Nat) (caller : Caller) (start : Nat),
    lobby.callers[number]? = some caller → caller.acquisition = .joined start →
    ∃ found : Start, lobby.registry.starts[start]? = some found ∧ found.language = caller.language
  returned : ∀ (number : Nat) (caller : Caller) (start : Nat) (outcome : Except WorkerError Nat),
    lobby.callers[number]? = some caller → caller.acquisition = .joined start →
    caller.standing = .returned outcome → lobby.registry.outcome? start = some outcome
  held : ∀ (number : Nat) (caller : Caller) (handle : Nat),
    lobby.callers[number]? = some caller → caller.standing = .returned (.ok handle) →
    ∃ (start : Nat) (found : Start), lobby.registry.starts[start]? = some found ∧
      found.language = caller.language ∧ found.progress = .settled (.ok handle)

section Acquire

theorem acquire_vacant (isVacant : lobby.registry.IsVacant language) (launcher : Nat)
    (timeout : Duration) :
    lobby.acquire language launcher timeout =
      ⟨{ lobby.registry.setSlot language (.starting lobby.registry.starts.length) with
          starts := lobby.registry.starts ++ [{ language, launcher, timeout }] },
        lobby.callers ++ [⟨language, .joined lobby.registry.starts.length, .waiting⟩]⟩ := by
  simp only [acquire, acquire_of_vacant isVacant]

theorem acquire_pending (pending : lobby.registry.slot? language = some (.starting start))
    (launcher : Nat) (timeout : Duration) :
    lobby.acquire language launcher timeout =
      { lobby with callers := lobby.callers ++ [⟨language, .joined start, .waiting⟩] } := by
  simp only [acquire, acquire_of_starting pending]

theorem acquire_alive (ready : lobby.registry.slot? language = some (.ready handle))
    (isAlive : lobby.registry.isAlive handle = true) (launcher : Nat) (timeout : Duration) :
    lobby.acquire language launcher timeout =
      { lobby with
        callers := lobby.callers ++ [⟨language, .held handle, .returned (.ok handle)⟩] } := by
  simp only [acquire, acquire_of_ready ready isAlive]

end Acquire

section Fair

theorem fair_empty : Fair {} where
  tidy := tidy_empty
  joined _ _ _ found := by simp at found
  returned _ _ _ _ found := by simp at found
  held _ _ _ found := by simp at found

/-- The registry changes, and nobody comes or goes. -/
theorem Fair.changeRegistry (fair : lobby.Fair) {registry : Registry} (tidy : registry.Tidy)
    (succeeds : lobby.registry.Succeeds registry) : Fair { lobby with registry } where
  tidy := tidy
  joined number caller start found joined := by
    obtain ⟨begun, isBegun, isLanguage⟩ := fair.joined number caller start found joined
    obtain ⟨next, isNext, advances⟩ := succeeds.starts start begun isBegun
    exact ⟨next, isNext, advances.language.trans isLanguage⟩
  returned number caller start outcome found joined returned :=
    succeeds.outcome? (fair.returned number caller start outcome found joined returned)
  held number caller handle found returned := by
    obtain ⟨start, begun, isBegun, isLanguage, settled⟩ :=
      fair.held number caller handle found returned
    obtain ⟨next, isNext, advances⟩ := succeeds.starts start begun isBegun
    exact ⟨start, next, isNext, advances.language.trans isLanguage, advances.settled _ settled⟩

/-- Somebody comes: what it waits for is there, and so is what it is handed. -/
theorem Fair.join (fair : lobby.Fair) {caller : Caller}
    (joins : ∀ other, caller.acquisition = .joined other → caller.standing = .waiting ∧
      ∃ found : Start, lobby.registry.starts[other]? = some found ∧
        found.language = caller.language)
    (holds : ∀ handle, caller.standing = .returned (.ok handle) →
      ∃ (number : Nat) (start : Start), lobby.registry.starts[number]? = some start ∧
        start.language = caller.language ∧ start.progress = .settled (.ok handle)) :
    Fair { lobby with callers := lobby.callers ++ [caller] } where
  tidy := fair.tidy
  joined number other start found joined := by
    rcases getElem?_concat found with wasThere | rfl
    · exact fair.joined number other start wasThere joined
    · exact (joins start joined).2
  returned number other start outcome found joined returned := by
    rcases getElem?_concat found with wasThere | rfl
    · exact fair.returned number other start outcome wasThere joined returned
    · rw [(joins start joined).1] at returned
      contradiction
  held number other handle found returned := by
    rcases getElem?_concat found with wasThere | rfl
    · exact fair.held number other handle wasThere returned
    · exact holds handle returned

/-- Somebody comes and waits. -/
theorem Fair.wait (fair : lobby.Fair)
    (isOwn : ∃ found : Start, lobby.registry.starts[start]? = some found ∧
      found.language = language) :
    Fair { lobby with callers := lobby.callers ++ [⟨language, .joined start, .waiting⟩] } := by
  refine fair.join (fun other joined => ?_) nofun
  cases joined
  exact ⟨rfl, isOwn⟩

/-- Somebody comes and is handed a worker at once. -/
theorem Fair.hold (fair : lobby.Fair)
    (isOwn : ∃ (number : Nat) (start : Start), lobby.registry.starts[number]? = some start ∧
      start.language = language ∧ start.progress = .settled (.ok handle)) :
    Fair { lobby with
      callers := lobby.callers ++ [⟨language, .held handle, .returned (.ok handle)⟩] } := by
  refine fair.join nofun fun other returned => ?_
  cases returned
  exact isOwn

/-- Every caller but one stands where it stood. -/
theorem getElem?_setStanding {standing : Standing} {other : Nat} {caller : Caller}
    (found : (lobby.setStanding number standing).callers[other]? = some caller) :
    lobby.callers[other]? = some caller ∨
      ∃ before : Caller, other = number ∧ lobby.callers[number]? = some before ∧
        caller = { before with standing } := by
  simp only [setStanding, List.getElem?_modify] at found
  obtain ⟨before, isBefore, changed⟩ := Option.map_eq_some_iff.mp found
  split at changed
  · rename_i same
    subst same
    exact .inr ⟨before, rfl, isBefore, changed.symm⟩
  · cases changed
    exact .inl isBefore

/-- A caller comes to stand elsewhere: what it has is what it was due. -/
theorem Fair.setStanding (fair : lobby.Fair) {standing : Standing}
    (isDue : ∀ caller outcome, lobby.callers[number]? = some caller →
      standing = .returned outcome →
      ∃ start, caller.acquisition = .joined start ∧
        lobby.registry.outcome? start = some outcome) :
    (lobby.setStanding number standing).Fair where
  tidy := fair.tidy
  joined other caller start found joined := by
    rcases getElem?_setStanding found with stays | ⟨before, rfl, isBefore, rfl⟩
    · exact fair.joined other caller start stays joined
    · exact fair.joined other before start isBefore joined
  returned other caller start outcome found joined returned := by
    rcases getElem?_setStanding found with stays | ⟨before, rfl, isBefore, rfl⟩
    · exact fair.returned other caller start outcome stays joined returned
    · obtain ⟨begun, isBegun, settled⟩ := isDue before outcome isBefore returned
      rw [isBegun] at joined
      cases joined
      exact settled
  held other caller handle found returned := by
    rcases getElem?_setStanding found with stays | ⟨before, rfl, isBefore, rfl⟩
    · exact fair.held other caller handle stays returned
    · obtain ⟨begun, isBegun, settled⟩ := isDue before _ isBefore returned
      obtain ⟨start, isStart, progress⟩ := outcome?_eq_some.mp settled
      obtain ⟨joined, isJoined, isLanguage⟩ := fair.joined other before begun isBefore isBegun
      rw [isStart] at isJoined
      cases isJoined
      exact ⟨begun, start, isStart, isLanguage, progress⟩

theorem Fair.acquire (fair : lobby.Fair) (language : String) (launcher : Nat)
    (timeout : Duration) : (lobby.acquire language launcher timeout).Fair := by
  have tidy := fair.tidy.acquire language launcher timeout
  have succeeds := lobby.registry.succeeds_acquire language launcher timeout
  have asked := fair.changeRegistry tidy succeeds
  rcases lobby.registry.vacant_or_kept language with isVacant | ⟨number, pending⟩ |
    ⟨handle, ready, isAlive⟩
  · rw [acquire_of_vacant isVacant] at asked
    rw [acquire_vacant isVacant]
    exact asked.wait ⟨_, List.getElem?_concat_length, rfl⟩
  · rw [acquire_pending pending]
    exact fair.wait (fair.tidy.starting language number pending)
  · rw [acquire_alive ready isAlive]
    exact fair.hold (fair.tidy.ready language handle ready)

theorem Fair.step (fair : lobby.Fair) (act : Act) : (lobby.step act).Fair := by
  cases act with
  | acquire language launcher timeout => exact fair.acquire language launcher timeout
  | poll number =>
      rw [Lobby.step]
      rcases lobby.poll_cases number with same | ⟨language, start, found, ⟨-, same⟩ | settled⟩
      · rw [same]
        exact fair
      · rw [same]
        cases turned : lobby.registry.turnStart start with
        | none => exact fair
        | some after =>
            exact fair.changeRegistry (fair.tidy.turnStart turned) (succeeds_turnStart turned)
      · obtain ⟨outcome, isOutcome, same⟩ := settled
        have succeeds := succeeds_collect lobby.registry language start outcome
        have collected := fair.changeRegistry (fair.tidy.collect isOutcome language) succeeds
        rw [same]
        refine collected.setStanding fun caller other isCaller returned => ?_
        have isFound : lobby.callers[number]? = some caller := isCaller
        rw [found] at isFound
        cases isFound
        cases returned
        exact ⟨start, rfl, succeeds.outcome? isOutcome⟩
  | leave number =>
      simp only [Lobby.step, leave]
      split
      · exact fair.setStanding fun _ _ _ isGone => by contradiction
      · exact fair
  | expire number => exact fair.changeRegistry (fair.tidy.expire number) (succeeds_expire ..)
  | shutdown language =>
    exact fair.changeRegistry (fair.tidy.shutdown language) (succeeds_shutdown ..)
  | shutdownAll => exact fair.changeRegistry fair.tidy.shutdownAll (succeeds_shutdownAll _)
  | move handle move =>
      exact fair.changeRegistry (fair.tidy.modifyHandle fun found _ => found.wanes_move move)
        (succeeds_modifyHandle fun found _ => found.wanes_move move)

theorem fair_run (acts : List Act) : (Lobby.run {} acts).Fair := by
  have kept (acts : List Act) {lobby : Lobby} (fair : lobby.Fair) : (lobby.run acts).Fair := by
    induction acts generalizing lobby with
    | nil => exact fair
    | cons act acts ih => exact ih (fair.step act)
  exact kept acts fair_empty

end Fair

/-! ## Other languages -/

section Apart

theorem callers_setStanding_iff {standing : Standing} {other : Nat} {caller : Caller}
    (isOther : ∀ found, lobby.callers[number]? = some found → found.language ≠ language)
    (isOwn : caller.language = language) :
    (lobby.setStanding number standing).callers[other]? = some caller ↔
      lobby.callers[other]? = some caller := by
  simp only [setStanding, List.getElem?_modify]
  by_cases same : number = other
  · subst same
    cases found : lobby.callers[number]? with
    | none => simp
    | some before =>
        have notOwn := isOther before found
        constructor
        · intro isNext
          obtain rfl : { before with standing } = caller := by simpa using isNext
          exact absurd isOwn notOwn
        · intro isSame
          cases isSame
          exact absurd isOwn notOwn
  · simp [same]

/-- What has to do with one language leaves everything of every other language as it is. -/
theorem agreesOn_step (fair : lobby.Fair) (unconcerned : ¬act.Concerns lobby language) :
    AgreesOn language lobby.registry (lobby.step act).registry ∧
      ∀ (number : Nat) (caller : Caller), caller.language = language →
        ((lobby.step act).callers[number]? = some caller ↔
          lobby.callers[number]? = some caller) := by
  cases act with
  | acquire other launcher timeout =>
      have isOther : language ≠ other := fun same => unconcerned same.symm
      refine ⟨agreesOn_acquire _ isOther launcher timeout, fun number caller isOwn => ?_⟩
      refine getElem?_concat_iff ?_
      rintro rfl
      exact isOther isOwn.symm
  | poll number =>
      rw [Lobby.step]
      rcases lobby.poll_cases number with same | ⟨other, start, found, pending⟩
      · rw [same]
        exact ⟨.refl _ _, fun _ _ _ => .rfl⟩
      · have isOther : other ≠ language := fun same => unconcerned ⟨_, found, same⟩
        rcases pending with ⟨-, same⟩ | ⟨outcome, -, same⟩
        · rw [same]
          refine ⟨?_, fun _ _ _ => .rfl⟩
          cases turned : lobby.registry.turnStart start with
          | none => exact .refl _ _
          | some after =>
              refine agreesOn_turnStart fair.tidy (fun begun isBegun => ?_) turned
              obtain ⟨joined, isJoined, isLanguage⟩ := fair.joined number _ start found rfl
              rw [isBegun] at isJoined
              cases isJoined
              rw [isLanguage]
              exact isOther
        · rw [same]
          refine ⟨agreesOn_collect isOther.symm outcome, fun _ _ isOwn =>
            callers_setStanding_iff (fun caller isCaller => ?_) isOwn⟩
          have isFound : lobby.callers[number]? = some caller := isCaller
          rw [found] at isFound
          cases isFound
          exact isOther
  | leave number =>
      simp only [Lobby.step, leave]
      split
      · rename_i other acquisition found
        refine ⟨.refl _ _,
          fun _ _ isOwn => callers_setStanding_iff (fun caller isCaller => ?_) isOwn⟩
        rw [found] at isCaller
        cases isCaller
        exact fun same => unconcerned ⟨_, found, same⟩
      · exact ⟨.refl _ _, fun _ _ _ => .rfl⟩
  | expire number =>
      exact ⟨agreesOn_expire fair.tidy fun start found same => unconcerned ⟨start, found, same⟩,
        fun _ _ _ => .rfl⟩
  | shutdown other =>
      exact ⟨agreesOn_shutdown fair.tidy fun same => unconcerned same.symm, fun _ _ _ => .rfl⟩
  | shutdownAll => exact absurd trivial unconcerned
  | move number move =>
      refine ⟨agreesOn_modifyHandle fun found isFound => ?_, fun _ _ _ => .rfl⟩
      rw [(found.wanes_move move).language]
      have isOther : found.language ≠ language := fun same => unconcerned ⟨found, isFound, same⟩
      exact ⟨isOther, isOther⟩

end Apart

/-! ## Sharing -/

/-- How callers share the starts of workers, from one state of a lobby on. -/
structure Shares (lobby : Lobby) : Prop where
  /-- A start begins only when somebody asks for the worker of a language for which nothing is
  kept, or a failure, or a worker that is dead. -/
  begins : ∀ act, (lobby.step act).registry.starts.length = lobby.registry.starts.length ∨
    ∃ language launcher timeout, act = .acquire language launcher timeout ∧
      lobby.registry.IsVacant language
  /-- Then exactly one begins, and the caller joins it. -/
  vacant : ∀ language launcher timeout, lobby.registry.IsVacant language →
    (lobby.step (.acquire language launcher timeout)).registry.starts =
        lobby.registry.starts ++ [({ language, launcher, timeout } : Start)] ∧
      (lobby.step (.acquire language launcher timeout)).registry.slot? language =
        some (.starting lobby.registry.starts.length) ∧
      (lobby.step (.acquire language launcher timeout)).callers =
        lobby.callers ++ [⟨language, .joined lobby.registry.starts.length, .waiting⟩]
  /-- Whoever comes while a start is under way joins it. -/
  pending : ∀ language launcher timeout start,
    lobby.registry.slot? language = some (.starting start) →
    lobby.step (.acquire language launcher timeout) =
      { lobby with callers := lobby.callers ++ [⟨language, .joined start, .waiting⟩] }
  /-- Whoever comes while the worker is alive is handed it. -/
  alive : ∀ language launcher timeout handle,
    lobby.registry.slot? language = some (.ready handle) → lobby.registry.isAlive handle = true →
    lobby.step (.acquire language launcher timeout) =
      { lobby with
        callers := lobby.callers ++ [⟨language, .held handle, .returned (.ok handle)⟩] }
  /-- A caller that joined a start and has an outcome has that of the start. -/
  own : ∀ (number : Nat) (caller : Caller) (start : Nat) (outcome : Except WorkerError Nat),
    lobby.callers[number]? = some caller → caller.acquisition = .joined start →
    caller.standing = .returned outcome → lobby.registry.outcome? start = some outcome
  /-- A start has one outcome for ever. -/
  settled : ∀ start outcome later, lobby.registry.outcome? start = some outcome →
    (lobby.run later).registry.outcome? start = some outcome
  /-- The first caller to have the outcome of the start that is kept writes it down. -/
  first : ∀ (number : Nat) language start outcome,
    lobby.callers[number]? = some ⟨language, .joined start, .waiting⟩ →
    lobby.registry.outcome? start = some outcome →
    lobby.registry.slot? language = some (.starting start) →
    (lobby.step (.poll number)).registry.slot? language = some (kept outcome) ∧
      (lobby.step (.poll number)).callers[number]? =
        some ⟨language, .joined start, .returned outcome⟩
  /-- A caller whose start is not what is kept changes nothing there. -/
  late : ∀ (number : Nat) language start outcome,
    lobby.callers[number]? = some ⟨language, .joined start, .waiting⟩ →
    lobby.registry.outcome? start = some outcome →
    lobby.registry.slot? language ≠ some (.starting start) →
    (lobby.step (.poll number)).registry = lobby.registry ∧
      (lobby.step (.poll number)).callers[number]? =
        some ⟨language, .joined start, .returned outcome⟩
  /-- A start that is not kept any more never is again. -/
  superseded : ∀ start, start < lobby.registry.starts.length →
    (∀ language, lobby.registry.slot? language ≠ some (.starting start)) →
    ∀ later language, (lobby.run later).registry.slot? language ≠ some (.starting start)
  /-- A failure lasts until somebody asks for the worker of the language again or the language is
  shut down. -/
  failed : ∀ language cause later, lobby.registry.status language = .failed cause →
    (∀ act ∈ later, ¬act.Resets language) →
    (lobby.run later).registry.status language = .failed cause
  /-- What has to do with one language leaves everything of every other language as it is. -/
  apart : ∀ act language, ¬act.Concerns lobby language →
    (lobby.step act).registry.status language = lobby.registry.status language ∧
      AgreesOn language lobby.registry (lobby.step act).registry ∧
      ∀ (number : Nat) (caller : Caller), caller.language = language →
        ((lobby.step act).callers[number]? = some caller ↔ lobby.callers[number]? = some caller)

section Shares

theorem status_eq_failed {registry : Registry} {cause : WorkerError} :
    registry.status language = .failed cause ↔ registry.slot? language = some (.failed cause) := by
  simp only [Registry.status]
  split <;> rename_i kept <;> simp only [kept]
  · simp
  · simp
  · split <;> simp
  · simp

/-- A caller that waits for a start that is over has its outcome at the next look. -/
theorem poll_of_outcome? {outcome : Except WorkerError Nat}
    (found : lobby.callers[number]? = some ⟨language, .joined start, .waiting⟩)
    (settled : lobby.registry.outcome? start = some outcome) :
    lobby.poll number =
      { lobby with registry := lobby.registry.collect language start outcome }.setStanding number
        (.returned outcome) := by
  simp only [poll, found, settled]

theorem callers_poll {outcome : Except WorkerError Nat}
    (found : lobby.callers[number]? = some ⟨language, .joined start, .waiting⟩)
    (settled : lobby.registry.outcome? start = some outcome) :
    (lobby.poll number).callers[number]? = some ⟨language, .joined start, .returned outcome⟩ := by
  rw [poll_of_outcome? found settled]
  simp [setStanding, found]

/-- A start that is not kept does not come to be kept. -/
theorem superseded_step (isOld : start < lobby.registry.starts.length)
    (superseded : ∀ language, lobby.registry.slot? language ≠ some (.starting start)) (act : Act)
    (language : String) : (lobby.step act).registry.slot? language ≠ some (.starting start) := by
  rcases lobby.slot?_step act language with same | ⟨_, _, _, _, begun⟩ |
    ⟨_, _, outcome, _, _, _, _, collected⟩ | ⟨_, forgotten⟩
  · rw [same]
    exact superseded language
  · rw [begun]
    intro same
    cases same
    exact absurd isOld (Nat.lt_irrefl _)
  · rw [collected]
    cases outcome <;> simp [kept]
  · rw [forgotten]
    simp

theorem superseded_run (later : List Act) (isOld : start < lobby.registry.starts.length)
    (superseded : ∀ language, lobby.registry.slot? language ≠ some (.starting start))
    (language : String) :
    (lobby.run later).registry.slot? language ≠ some (.starting start) := by
  induction later generalizing lobby with
  | nil => exact superseded language
  | cons act later ih =>
      have still := (lobby.succeeds_step act).length_starts
      exact ih (Nat.lt_of_lt_of_le isOld still) (superseded_step isOld superseded act)

theorem failed_run {cause : WorkerError} (later : List Act)
    (failed : lobby.registry.slot? language = some (.failed cause))
    (lasts : ∀ act ∈ later, ¬act.Resets language) :
    (lobby.run later).registry.slot? language = some (.failed cause) := by
  induction later generalizing lobby with
  | nil => exact failed
  | cons act later ih =>
      have notReset := lasts act List.mem_cons_self
      refine ih ?_ fun other member => lasts other (List.mem_cons_of_mem _ member)
      rcases lobby.slot?_step act language with same | ⟨_, _, rfl, _⟩ |
        ⟨_, _, _, _, _, _, pending, _⟩ | ⟨rfl | rfl, _⟩
      · rw [same, failed]
      · exact absurd rfl notReset
      · rw [failed] at pending
        cases pending
      · exact absurd rfl notReset
      · exact absurd trivial notReset

theorem Fair.shares (fair : lobby.Fair) : lobby.Shares where
  begins := lobby.length_starts_step
  vacant language launcher timeout isVacant := by
    rw [Lobby.step, acquire_vacant isVacant]
    have slots := slot?_setSlot lobby.registry language language
      (.starting lobby.registry.starts.length)
    rw [if_pos rfl] at slots
    exact ⟨rfl, slots, rfl⟩
  pending language launcher timeout start pending := acquire_pending pending launcher timeout
  alive language launcher timeout handle ready isAlive :=
    acquire_alive ready isAlive launcher timeout
  own := fair.returned
  settled start outcome later settled := (lobby.succeeds_run later).outcome? settled
  first number language start outcome found settled pending := by
    refine ⟨?_, callers_poll found settled⟩
    have slots := slot?_collect lobby.registry language language start outcome
    rw [if_pos ⟨rfl, pending⟩] at slots
    rw [Lobby.step, poll_of_outcome? found settled]
    exact slots
  late number language start outcome found settled notKept := by
    refine ⟨?_, callers_poll found settled⟩
    rw [Lobby.step, poll_of_outcome? found settled, collect.eq_def, if_neg notKept]
    rfl
  superseded start isOld superseded later := superseded_run later isOld superseded
  failed language cause later failed lasts :=
    status_eq_failed.mpr (failed_run later (status_eq_failed.mp failed) lasts)
  apart act language unconcerned := by
    obtain ⟨agrees, sameCallers⟩ := agreesOn_step fair unconcerned
    exact ⟨agrees.status fair.tidy, agrees, sameCallers⟩

/-- Callers share the starts of workers at every point of every history of a registry. -/
theorem shares_run (acts : List Act) : (Lobby.run {} acts).Shares :=
  (fair_run acts).shares

end Shares

end Polyglot.Worker.Lobby
